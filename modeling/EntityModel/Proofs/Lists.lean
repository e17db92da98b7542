import Mathlib.Data.List.Forall2
import Mathlib.Data.List.Induction
import Mathlib.Data.List.Perm.Basic

/-!
# Lists that are related one by one

What relates the elements of two lists at the same places relates the lists: their members
(`exists_mem_of_forall₂`), what they are mapped to (`map_eq_of_forall₂`), and a list and the results
for its elements, where there is one for each of them (`mapM_eq_some`).
-/

namespace EntityModel

universe u v w

/-- Appending what is not there yet leaves the first of each. -/
theorem foldl_append_new {α : Type u} [DecidableEq α] (as : List α) :
    as.foldl (fun seen a => if a ∈ seen then seen else seen ++ [a]) [] = as.eraseDups := by
  induction as using List.reverseRecOn with
  | nil => rfl
  | append_singleton as a ih =>
    rw [List.foldl_append, ih, List.eraseDups_append]
    by_cases h : a ∈ as
    · simp [h, List.removeAll]
    · simp [h, List.removeAll, List.eraseDups_cons]

section
variable {α : Type u} {β : Type v} {xs : List α} {ys : List β}

/-- What is in a list is related to something in a list that is related to it one by one. -/
theorem exists_mem_of_forall₂ {r : α → β → Prop} (h : List.Forall₂ r xs ys) {x : α}
    (hx : x ∈ xs) : ∃ y ∈ ys, r x y := by
  induction h with
  | nil => cases hx
  | cons hxy _ ih =>
    rcases List.mem_cons.1 hx with rfl | hx
    · exact ⟨_, List.mem_cons_self .., hxy⟩
    · obtain ⟨y, hy, hxy⟩ := ih hx
      exact ⟨y, List.mem_cons_of_mem _ hy, hxy⟩

/-- Lists of which each two elements are mapped to the same are mapped to the same. -/
theorem map_eq_of_forall₂ {γ : Type w} {f : α → γ} {g : β → γ}
    (h : List.Forall₂ (fun x y => f x = g y) xs ys) : xs.map f = ys.map g := by
  rwa [← List.forall₂_eq_eq_eq, List.forall₂_map_left_iff, List.forall₂_map_right_iff]

end

/-! ## Lists that are mapped with success -/

section
variable {α β : Type} {f : α → Option β} {xs : List α} {ys : List β}

/-- A list is mapped with success, element by element. -/
theorem mapM_eq_some :
    xs.mapM f = some ys ↔ List.Forall₂ (fun x y => f x = some y) xs ys := by
  induction xs generalizing ys with
  | nil => simp [eq_comm]
  | cons x xs ih =>
    simp only [List.mapM_cons, Option.bind_eq_bind, Option.bind_eq_some_iff, Option.pure_def,
      Option.some.injEq]
    constructor
    · rintro ⟨y, hy, ys, hys, rfl⟩
      exact .cons hy (ih.1 hys)
    · rintro (_ | ⟨hy, hys⟩)
      exact ⟨_, hy, _, ih.2 hys, rfl⟩

/-- A list is mapped by what its elements are mapped to, under a condition on each of them. -/
theorem mapM_eq_some_iff_map {P : α → Prop} {g : α → β}
    (h : ∀ x y, f x = some y ↔ P x ∧ y = g x) :
    xs.mapM f = some ys ↔ (∀ x ∈ xs, P x) ∧ ys = xs.map g := by
  simp only [mapM_eq_some, h]
  constructor
  · intro hforall
    induction hforall with
    | nil => exact ⟨List.forall_mem_nil _, rfl⟩
    | cons hx _ ih => exact ⟨List.forall_mem_cons.2 ⟨hx.1, ih.1⟩, by rw [hx.2, ih.2, List.map_cons]⟩
  · rintro ⟨hxs, rfl⟩
    rw [List.forall₂_map_right_iff]
    exact List.forall₂_same.2 fun x hx => ⟨hxs x hx, rfl⟩

/-- A list is mapped with success if each of its elements is. -/
theorem exists_mapM_eq_some : (∃ ys, xs.mapM f = some ys) ↔ ∀ x ∈ xs, ∃ y, f x = some y := by
  induction xs with
  | nil => simp
  | cons x xs ih =>
    simp only [List.mapM_cons, Option.bind_eq_bind, Option.bind_eq_some_iff, Option.pure_def,
      Option.some.injEq, List.forall_mem_cons, ← ih]
    constructor
    · rintro ⟨_, y, hy, ys, hys, rfl⟩
      exact ⟨⟨y, hy⟩, ys, hys⟩
    · rintro ⟨⟨y, hy⟩, ys, hys⟩
      exact ⟨_, y, hy, ys, hys, rfl⟩

/-- What is among the images is the image of something. -/
theorem exists_of_mem_mapM (h : xs.mapM f = some ys) {y : β} (hy : y ∈ ys) :
    ∃ x ∈ xs, f x = some y :=
  exists_mem_of_forall₂ (List.Forall₂.flip (mapM_eq_some.1 h)) hy

/-- What is mapped has its image among the images. -/
theorem exists_mem_of_mapM (h : xs.mapM f = some ys) {x : α} (hx : x ∈ xs) :
    ∃ y ∈ ys, f x = some y :=
  exists_mem_of_forall₂ (mapM_eq_some.1 h) hx

/-- Mapping the values of members keeps their names. -/
theorem map_fst_of_mapM {κ : Type} {f : α → Option β} {xs : List (κ × α)} {ys : List (κ × β)}
    (h : xs.mapM (fun x => (f x.2).map fun y => (x.1, y)) = some ys) :
    ys.map Prod.fst = xs.map Prod.fst := by
  refine (map_eq_of_forall₂ ((mapM_eq_some.1 h).imp fun x y hxy => ?_)).symm
  obtain ⟨b, -, rfl⟩ := Option.map_eq_some_iff.1 hxy
  rfl

/-- Elements in another order are mapped to the same in another order. -/
theorem exists_mapM_of_perm {xs' : List α} (h : xs.mapM f = some ys) (hperm : xs.Perm xs') :
    ∃ ys', xs'.mapM f = some ys' ∧ ys.Perm ys' := by
  obtain ⟨ys', hys', hys⟩ := List.perm_comp_forall₂ hperm.symm (mapM_eq_some.1 h)
  exact ⟨ys', mapM_eq_some.2 hys', hys.symm⟩

/-- What is related to a list one by one is mapped to what is related to it one by one, if each
element of it is. -/
theorem exists_mapM_of_forall₂ {γ : Type} {r : γ → α → Prop} {s : γ → β → Prop} {zs : List γ}
    (h : List.Forall₂ r zs xs) (hf : ∀ z ∈ zs, ∀ x, r z x → ∃ y, f x = some y ∧ s z y) :
    ∃ ys, xs.mapM f = some ys ∧ List.Forall₂ s zs ys := by
  induction h with
  | nil => exact ⟨[], rfl, .nil⟩
  | @cons z x zs xs hzx _ ih =>
    obtain ⟨hz, hzs⟩ := List.forall_mem_cons.1 hf
    obtain ⟨y, hy, hzy⟩ := hz x hzx
    obtain ⟨ys, hys, hforall⟩ := ih hzs
    exact ⟨y :: ys, by rw [List.mapM_cons, hy, hys]; rfl, .cons hzy hforall⟩

end

end EntityModel
