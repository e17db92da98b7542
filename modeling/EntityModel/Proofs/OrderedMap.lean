import EntityModel.OrderedMap
import EntityModel.Proofs.Lists
import Mathlib.Data.List.Induction
import Mathlib.Data.List.Nodup
import Mathlib.Data.List.Perm.Subperm

/-!
# Ordered maps by their look-ups

An ordered map is known by its keys and its look-ups (`OrderedMap.ext_find?`), and each operation is
described by what it does to both. Entries with new and distinct keys are appended as they are
(`OrderedMap.entries_insertAll`).
-/

namespace EntityModel.OrderedMap

universe u v w

section
variable {κ : Type u} {α : Type v} (m : OrderedMap κ α)

@[simp] theorem keys_empty : (empty : OrderedMap κ α).keys = [] := rfl

@[simp] theorem keys_filterKeys (p : κ → Bool) : (m.filterKeys p).keys = m.keys.filter p := by
  simp [keys, filterKeys, List.filter_map, Function.comp_def]

/-- The values of a map with mapped values are mapped. -/
theorem values_mapValues {β : Type w} (f : α → β) :
    (m.mapValues fun _ a => f a).values = m.values.map f := by
  simp [values, mapValues]

/-- Maps the values, of which some may be left out with their keys. -/
def filterMapValues {β : Type w} (f : α → Option β) : OrderedMap κ β where
  entries := m.entries.filterMap fun e => (f e.2).map fun b => (e.1, b)
  nodup_keys := by
    refine List.pairwise_map.2 (List.pairwise_filterMap.2 ?_)
    refine (List.pairwise_map.1 m.nodup_keys).imp fun hab e he e' he' => ?_
    obtain ⟨_, -, rfl⟩ := Option.map_eq_some_iff.1 he
    obtain ⟨_, -, rfl⟩ := Option.map_eq_some_iff.1 he'
    exact hab

/-- The entries of a map with mapped values are those with a value that is kept. -/
theorem mem_entries_filterMapValues {β : Type w} {f : α → Option β} {k : κ} {b : β} :
    (k, b) ∈ (m.filterMapValues f).entries ↔ ∃ a, (k, a) ∈ m.entries ∧ f a = some b := by
  simp only [filterMapValues, List.mem_filterMap, Option.map_eq_some_iff, Prod.exists,
    Prod.mk.injEq]
  constructor
  · rintro ⟨k', a, ha, b', hb, rfl, rfl⟩
    exact ⟨a, ha, hb⟩
  · rintro ⟨a, ha, hb⟩
    exact ⟨k, a, ha, b, hb, rfl, rfl⟩

/-- A map is empty if it has no key. -/
theorem isEmpty_eq_true : m.isEmpty = true ↔ m.keys = [] := by
  simp [isEmpty, keys]

/-- What the entries of a map give is distinct, if it is for each entry and shows its key. -/
theorem nodup_flatMap_entries {β : Type w} (f : κ × α → List β) (key : β → κ)
    (hf : ∀ e ∈ m.entries, (f e).Nodup) (hkey : ∀ e, ∀ b ∈ f e, key b = e.1) :
    (m.entries.flatMap f).Nodup := by
  refine List.nodup_flatMap.2 ⟨hf, (List.pairwise_map.1 m.nodup_keys).imp fun hab => ?_⟩
  intro b ha hb
  exact hab ((hkey _ b ha).symm.trans (hkey _ b hb))

/-- What the values of a map count is the number of what its entries give. -/
theorem foldl_values_eq_length {β : Type w} (size : α → Nat) (f : κ × α → List β)
    (hf : ∀ e, (f e).length = size e.2) :
    m.values.foldl (fun n a => n + size a) 0 = (m.entries.flatMap f).length := by
  suffices h : ∀ (es : List (κ × α)) (n : Nat),
      es.foldl (fun n e => n + size e.2) n = n + (es.flatMap f).length by
    rw [values, List.foldl_map, h, Nat.zero_add]
  intro es
  induction es with
  | nil => exact fun n => rfl
  | cons e es ih =>
    intro n
    rw [List.foldl_cons, ih, List.flatMap_cons, List.length_append, hf, Nat.add_assoc]

end

section
variable {κ : Type u} {α : Type v} {β : Type w} [DecidableEq κ]

/-! ## Look-ups in lists of entries -/

/-- With distinct keys, an entry is what its key is looked up as. -/
theorem mem_iff_lookupIn {es : List (κ × α)} (hes : (es.map Prod.fst).Nodup) {k : κ} {v : α} :
    (k, v) ∈ es ↔ lookupIn k es = some v := by
  induction es with
  | nil => simp [lookupIn]
  | cons e rest ih =>
    obtain ⟨k', v'⟩ := e
    rw [List.map_cons, List.nodup_cons] at hes
    rw [List.mem_cons, lookupIn]
    by_cases h : k' = k
    · subst h
      have hrest : (k', v) ∉ rest := fun hm => hes.1 (List.mem_map.2 ⟨_, hm, rfl⟩)
      simp [hrest, eq_comm]
    · rw [if_neg h, ih hes.2]
      simp [Ne.symm h]

/-- A look-up in entries with mapped values. -/
theorem lookupIn_map (f : κ → α → β) (k : κ) (es : List (κ × α)) :
    lookupIn k (es.map fun e => (e.1, f e.1 e.2)) = (lookupIn k es).map (f k) := by
  induction es with
  | nil => rfl
  | cons e rest ih =>
    obtain ⟨k', v⟩ := e
    by_cases h : k' = k
    · simp [lookupIn, h]
    · simp [lookupIn, h, ih]

/-- A key that stands behind entries with other keys is changed there. -/
theorem upsertIn_append {k : κ} {es : List (κ × α)} (h : k ∉ es.map Prod.fst)
    (f : Option α → α) (fs : List (κ × α)) : upsertIn k f (es ++ fs) = es ++ upsertIn k f fs := by
  induction es with
  | nil => rfl
  | cons e rest ih =>
    obtain ⟨k', v⟩ := e
    rw [List.map_cons, List.mem_cons, not_or] at h
    rw [List.cons_append, upsertIn, if_neg (Ne.symm h.1), ih h.2, List.cons_append]

/-- A new key goes to the end. -/
theorem upsertIn_eq_append {k : κ} {es : List (κ × α)} (h : k ∉ es.map Prod.fst)
    (f : Option α → α) : upsertIn k f es = es ++ [(k, f none)] := by
  simpa [upsertIn] using upsertIn_append h f []

/-- Of two changes at a key, the second starts from what the first gave. -/
theorem upsertIn_upsertIn (k : κ) (f g : Option α → α) (es : List (κ × α)) :
    upsertIn k g (upsertIn k f es) = upsertIn k (fun o => g (some (f o))) es := by
  induction es with
  | nil => simp [upsertIn]
  | cons e rest ih =>
    obtain ⟨k', v⟩ := e
    by_cases h : k' = k
    · simp [upsertIn, h]
    · simp [upsertIn, h, ih]

/-- A look-up in appended entries. -/
theorem lookupIn_append (k : κ) (es fs : List (κ × α)) :
    lookupIn k (es ++ fs) = (lookupIn k es).or (lookupIn k fs) := by
  induction es with
  | nil => rfl
  | cons e rest ih =>
    obtain ⟨k', v⟩ := e
    by_cases h : k' = k
    · simp [lookupIn, h]
    · simp [lookupIn, h, ih]

/-- A look-up finds the first entry of its key. -/
theorem lookupIn_eq_some {k : κ} {v : α} {es : List (κ × α)} :
    lookupIn k es = some v ↔
      ∃ before after, es = before ++ (k, v) :: after ∧ k ∉ before.map Prod.fst := by
  induction es with
  | nil => simp [lookupIn]
  | cons e rest ih =>
    obtain ⟨k', v'⟩ := e
    rw [lookupIn]
    constructor
    · intro h
      split at h
      · next hk =>
        cases h
        exact ⟨[], rest, by rw [hk, List.nil_append], List.not_mem_nil⟩
      · next hk =>
        obtain ⟨before, after, rfl, hbefore⟩ := ih.1 h
        exact ⟨(k', v') :: before, after, rfl, by simp [Ne.symm hk, hbefore]⟩
    · rintro ⟨_ | ⟨e, before⟩, after, hes, hbefore⟩
      · cases hes
        exact if_pos rfl
      · cases hes
        rw [List.map_cons, List.mem_cons, not_or] at hbefore
        rw [if_neg (Ne.symm hbefore.1)]
        exact ih.2 ⟨before, after, rfl, hbefore.2⟩

/-- A look-up in reversed entries finds the last entry of its key. -/
theorem lookupIn_reverse_eq_some {k : κ} {v : α} {es : List (κ × α)} :
    lookupIn k es.reverse = some v ↔
      ∃ before after, es = before ++ (k, v) :: after ∧ k ∉ after.map Prod.fst := by
  rw [lookupIn_eq_some]
  constructor
  · rintro ⟨before, after, hes, hbefore⟩
    refine ⟨after.reverse, before.reverse, ?_, by simpa using hbefore⟩
    rw [← List.reverse_reverse es, hes]
    simp
  · rintro ⟨before, after, rfl, hafter⟩
    exact ⟨after.reverse, before.reverse, by simp, by simpa using hafter⟩

/-! ## Keys and look-ups of maps -/

variable (m : OrderedMap κ α)

/-- The entries of a map are its successful look-ups. -/
theorem mem_entries {k : κ} {v : α} : (k, v) ∈ m.entries ↔ m.find? k = some v :=
  mem_iff_lookupIn m.nodup_keys

/-- A map holds its keys. -/
@[simp] theorem contains_eq_true {k : κ} : m.contains k = true ↔ k ∈ m.keys := by
  simp [contains]

/-- A look-up fails where there is no key. -/
theorem find?_eq_none {k : κ} : m.find? k = none ↔ k ∉ m.keys := by
  rw [← Option.not_isSome_iff_eq_none, isSome_find?]

/-- A key is looked up with success. -/
theorem exists_find?_of_mem {k : κ} (h : k ∈ m.keys) : ∃ v, m.find? k = some v :=
  Option.isSome_iff_exists.1 ((m.isSome_find? k).2 h)

/-- What is looked up with success is a key. -/
theorem mem_keys_of_find? {m : OrderedMap κ α} {k : κ} {v : α} (h : m.find? k = some v) :
    k ∈ m.keys :=
  (m.isSome_find? k).1 (h ▸ rfl)

@[simp] theorem find?_empty (k : κ) : (empty : OrderedMap κ α).find? k = none := rfl

/-- Of what the entries of a map give, that of one key is what its value gives. -/
theorem filter_flatMap_entries (key : β → κ) {f : κ × α → List β}
    (hkey : ∀ e, ∀ b ∈ f e, key b = e.1) (k : κ) (p : β → Bool) :
    (m.entries.flatMap f).filter (fun b => decide (key b = k) && p b) =
      (m.find? k).elim [] fun v => (f (k, v)).filter p := by
  have hother : ∀ es : List (κ × α), k ∉ es.map Prod.fst →
      (es.flatMap f).filter (fun b => decide (key b = k) && p b) = [] := by
    intro es hes
    rw [List.filter_eq_nil_iff]
    intro b hb hp
    obtain ⟨e, he, hb⟩ := List.mem_flatMap.1 hb
    have hk : key b = k := by simp_all
    exact hes (hk ▸ hkey e b hb ▸ List.mem_map_of_mem he)
  cases hk : m.find? k with
  | none => exact hother m.entries (m.find?_eq_none.1 hk)
  | some v =>
    obtain ⟨before, after, hes, hbefore⟩ := lookupIn_eq_some.1 hk
    have hafter : k ∉ after.map Prod.fst := by
      have hkeys := m.nodup_keys
      rw [hes, List.map_append, List.map_cons, List.nodup_append, List.nodup_cons] at hkeys
      exact hkeys.2.1.1
    rw [hes, List.flatMap_append, List.flatMap_cons, List.filter_append, List.filter_append,
      hother before hbefore, hother after hafter, List.nil_append, List.append_nil,
      Option.elim_some]
    exact List.filter_congr fun b hb => by simp [hkey (k, v) b hb]

/-- A value is what some key is looked up as. -/
theorem mem_values {v : α} : v ∈ m.values ↔ ∃ k, m.find? k = some v := by
  simp [values, ← mem_entries]

/-- The values are what the keys are looked up as. -/
theorem filterMap_find?_keys : m.keys.filterMap m.find? = m.values := by
  have hvalue : ∀ e ∈ m.entries, m.find? e.1 = some e.2 := fun _ he => m.mem_entries.1 he
  rw [keys, values, List.filterMap_map]
  exact (List.filterMap_congr hvalue).trans (congrFun List.filterMap_eq_map _)

/-- A look-up in a map that may be missing. -/
theorem find?_getD_empty (o : Option (OrderedMap κ α)) (k : κ) :
    (o.getD empty).find? k = o.bind fun m => m.find? k := by
  cases o <;> rfl

@[simp] theorem find?_mapValues (f : κ → α → β) (k : κ) :
    (m.mapValues f).find? k = (m.find? k).map (f k) :=
  lookupIn_map f k m.entries

@[simp] theorem keys_modify (k : κ) (f : α → α) : (m.modify k f).keys = m.keys :=
  keys_mapValues _ m

@[simp] theorem find?_modify (k k' : κ) (f : α → α) :
    (m.modify k f).find? k' = if k' = k then (m.find? k').map f else m.find? k' := by
  rw [modify, find?_mapValues]
  split <;> simp

end

section
variable {κ : Type u} {α : Type v} [DecidableEq κ]

/-- A look-up in a map with mapped values succeeds where the value is kept. -/
theorem find?_filterMapValues {β : Type w} (m : OrderedMap κ α) {f : α → Option β} {k : κ} {b : β} :
    (m.filterMapValues f).find? k = some b ↔ ∃ a, m.find? k = some a ∧ f a = some b := by
  simp only [← mem_entries, mem_entries_filterMapValues]

/-- Two lists of entries with the same distinct keys and the same look-ups are equal. -/
theorem ext_lookupIn {es fs : List (κ × α)} (hes : (es.map Prod.fst).Nodup)
    (hkeys : es.map Prod.fst = fs.map Prod.fst)
    (h : ∀ k ∈ es.map Prod.fst, lookupIn k es = lookupIn k fs) : es = fs := by
  induction es generalizing fs with
  | nil => exact (List.map_eq_nil_iff.1 hkeys.symm).symm
  | cons e rest ih =>
    obtain ⟨k, v⟩ := e
    cases fs with
    | nil => simp at hkeys
    | cons f rest' =>
      obtain ⟨k', v'⟩ := f
      rw [List.map_cons, List.map_cons, List.cons.injEq] at hkeys
      obtain ⟨rfl, hrest⟩ := hkeys
      rw [List.map_cons, List.nodup_cons] at hes
      have hv : v = v' := by simpa [lookupIn] using h k (List.mem_cons_self ..)
      subst hv
      congr 1
      refine ih hes.2 hrest fun k' hk' => ?_
      have hne : k ≠ k' := fun he => hes.1 (he ▸ hk')
      simpa [lookupIn, hne] using h k' (List.mem_cons_of_mem _ hk')

/-- Maps with the same keys in the same order and the same look-ups are equal. -/
theorem ext_find? {m n : OrderedMap κ α} (hkeys : m.keys = n.keys)
    (h : ∀ k ∈ m.keys, m.find? k = n.find? k) : m = n :=
  ext_entries (ext_lookupIn m.nodup_keys hkeys h)

/-- A change that gives a key the value it has changes nothing. -/
theorem upsert_eq_self {m : OrderedMap κ α} {k : κ} {v : α} {f : Option α → α}
    (h : m.find? k = some v) (hf : f (some v) = v) : m.upsert k f = m := by
  refine ext_find? ?_ fun k' _ => ?_
  · rw [keys_upsert, if_pos (mem_keys_of_find? h)]
  · by_cases hk : k = k'
    · rw [find?_upsert, if_pos hk, ← hk, h, hf]
    · rw [find?_upsert, if_neg hk]

/-- Of two changes at a key, the second starts from what the first gave. -/
theorem upsert_upsert (m : OrderedMap κ α) (k : κ) (f g : Option α → α) :
    (m.upsert k f).upsert k g = m.upsert k fun o => g (some (f o)) :=
  ext_entries (upsertIn_upsertIn k f g m.entries)

/-- A change at a key changes one entry at its place, or appends one. -/
theorem entries_upsert (m : OrderedMap κ α) (k : κ) (f : Option α → α) :
    (∃ before v after, m.entries = before ++ (k, v) :: after ∧
      (m.upsert k f).entries = before ++ (k, f (some v)) :: after) ∨
    (m.upsert k f).entries = m.entries ++ [(k, f none)] := by
  by_cases hk : k ∈ m.keys
  · left
    obtain ⟨v, hv⟩ := m.exists_find?_of_mem hk
    obtain ⟨before, after, hes, hbefore⟩ := lookupIn_eq_some.1 hv
    refine ⟨before, v, after, hes, ?_⟩
    show upsertIn k f m.entries = _
    rw [hes, upsertIn_append hbefore]
    simp [upsertIn]
  · right
    exact upsertIn_eq_append hk f

/-- A map has an entry after a change at a key. -/
theorem entries_upsert_ne_nil (m : OrderedMap κ α) (k : κ) (f : Option α → α) :
    (m.upsert k f).entries ≠ [] := by
  obtain ⟨_, _, _, -, hes⟩ | hes := m.entries_upsert k f <;> simp [hes]

/-- Inserts entries one after the other. -/
def insertAll (m : OrderedMap κ α) (es : List (κ × α)) : OrderedMap κ α :=
  es.foldl (fun m e => m.insert e.1 e.2) m

/-- Entries with new and distinct keys are appended by inserting them. -/
theorem entries_insertAll {es : List (κ × α)} {m : OrderedMap κ α}
    (h : ((m.entries ++ es).map Prod.fst).Nodup) : (m.insertAll es).entries = m.entries ++ es := by
  induction es generalizing m with
  | nil => simp [insertAll]
  | cons e rest ih =>
    have hnew : e.1 ∉ m.entries.map Prod.fst := by
      rw [List.map_append, List.nodup_append] at h
      exact fun he => h.2.2 _ he e.1 (by simp) rfl
    have hins : (m.insert e.1 e.2).entries = m.entries ++ [e] := upsertIn_eq_append hnew _
    have hrest : (((m.insert e.1 e.2).entries ++ rest).map Prod.fst).Nodup := by
      rwa [hins, List.append_assoc, List.singleton_append]
    have hih : ((m.insert e.1 e.2).insertAll rest).entries = (m.insert e.1 e.2).entries ++ rest :=
      ih hrest
    rw [hins, List.append_assoc, List.singleton_append] at hih
    exact hih

/-- Of the entries that are inserted under a key, the last counts. -/
theorem find?_insertAll (m : OrderedMap κ α) (es : List (κ × α)) (k : κ) :
    (m.insertAll es).find? k = (lookupIn k es.reverse).or (m.find? k) := by
  induction es generalizing m with
  | nil => rfl
  | cons e es ih =>
    have hrest : ((m.insert e.1 e.2).insertAll es).find? k =
        (lookupIn k es.reverse).or ((m.insert e.1 e.2).find? k) := ih _
    refine hrest.trans ?_
    rw [List.reverse_cons, lookupIn_append, find?_insert, Option.or_assoc]
    by_cases h : e.1 = k <;> simp [lookupIn, h]

/-- The keys of inserted entries are there besides the old ones. -/
theorem mem_keys_insertAll {m : OrderedMap κ α} {es : List (κ × α)} {k : κ} :
    k ∈ (m.insertAll es).keys ↔ k ∈ m.keys ∨ k ∈ es.map Prod.fst := by
  rw [← isSome_find?, find?_insertAll, Option.isSome_or, Bool.or_eq_true, isSome_lookupIn,
    isSome_find?, List.map_reverse, List.mem_reverse]
  exact or_comm

/-- Entries are all kept exactly if their keys are distinct. -/
theorem size_insertAll_empty {es : List (κ × α)} :
    ((empty : OrderedMap κ α).insertAll es).size = es.length ↔ (es.map Prod.fst).Nodup := by
  constructor
  · intro hsize
    have hsub : ((empty : OrderedMap κ α).insertAll es).keys ⊆ es.map Prod.fst := fun k hk =>
      (mem_keys_insertAll.1 hk).resolve_left List.not_mem_nil
    have hlength : (es.map Prod.fst).length ≤
        ((empty : OrderedMap κ α).insertAll es).keys.length := by
      rw [keys, List.length_map, List.length_map]
      exact Nat.le_of_eq hsize.symm
    have hperm := (List.Nodup.subperm (nodup_keys _) hsub).perm_of_length_le hlength
    exact hperm.nodup_iff.1 (nodup_keys _)
  · intro hnodup
    exact congrArg List.length (entries_insertAll (m := empty) hnodup)

/-- Inserting entries adds no key where all are there. -/
theorem keys_insertAll_of_subset {m : OrderedMap κ α} {es : List (κ × α)}
    (h : ∀ e ∈ es, e.1 ∈ m.keys) : (m.insertAll es).keys = m.keys := by
  induction es generalizing m with
  | nil => rfl
  | cons e es ih =>
    have hkeys : (m.insert e.1 e.2).keys = m.keys := by
      rw [keys_insert, if_pos (h e (List.mem_cons_self ..))]
    have hrest : ∀ e' ∈ es, e'.1 ∈ (m.insert e.1 e.2).keys := fun e' he' =>
      hkeys ▸ h e' (List.mem_cons_of_mem _ he')
    exact (ih hrest).trans hkeys

/-- Inserting the same entries again changes nothing. -/
theorem insertAll_insertAll (m : OrderedMap κ α) (es : List (κ × α)) :
    (m.insertAll es).insertAll es = m.insertAll es := by
  refine ext_find? (keys_insertAll_of_subset fun e he => ?_) fun k _ => ?_
  · exact mem_keys_insertAll.2 (.inr (List.mem_map_of_mem he))
  · rw [find?_insertAll, find?_insertAll, ← Option.or_assoc, Option.or_self]

/-! ## Rearranged maps -/

/-- Entries in another order are looked up as before. -/
theorem lookupIn_of_perm {es fs : List (κ × α)} (hes : (es.map Prod.fst).Nodup) (h : es.Perm fs)
    (k : κ) : lookupIn k es = lookupIn k fs := by
  refine Option.ext fun a => ?_
  rw [← mem_iff_lookupIn hes, ← mem_iff_lookupIn ((h.map Prod.fst).nodup_iff.1 hes)]
  exact h.mem_iff

theorem find?_of_perm {m n : OrderedMap κ α} (h : m.entries.Perm n.entries) (k : κ) :
    m.find? k = n.find? k :=
  lookupIn_of_perm m.nodup_keys h k

end

section
variable {κ : Type u} {α : Type v} {R : α → α → Prop} {m n : OrderedMap κ α}

/-- The maps have the same keys, in any two orders, with related values. -/
def Rearranged (R : α → α → Prop) (m n : OrderedMap κ α) : Prop :=
  ∃ es, List.Forall₂ (fun a b => a.1 = b.1 ∧ R a.2 b.2) m.entries es ∧ es.Perm n.entries

namespace Rearranged

/-- What is the same for related entries is made of the entries in another order. -/
theorem map_perm {β : Type w} (h : Rearranged R m n) {f : κ × α → β}
    (hf : ∀ k a b, R a b → f (k, a) = f (k, b)) : (m.entries.map f).Perm (n.entries.map f) := by
  obtain ⟨es, hes, hperm⟩ := h
  have hmap : m.entries.map f = es.map f := by
    refine map_eq_of_forall₂ (hes.imp ?_)
    rintro ⟨k, a⟩ ⟨-, b⟩ ⟨rfl, hab⟩
    exact hf k a b hab
  exact hmap ▸ hperm.map f

/-- The keys are the same in another order. -/
theorem keys_perm (h : Rearranged R m n) : m.keys.Perm n.keys :=
  h.map_perm fun _ _ _ _ => rfl

/-- The relation of the values may be turned around. -/
theorem symm (h : Rearranged R m n) (hR : ∀ a b, R a b → R b a) : Rearranged R n m := by
  obtain ⟨es, hes, hperm⟩ := h
  have hflip : List.Forall₂ (fun a b => a.1 = b.1 ∧ R a.2 b.2) es m.entries :=
    List.Forall₂.flip (hes.imp fun _ _ hab => ⟨hab.1.symm, hR _ _ hab.2⟩)
  exact List.perm_comp_forall₂ hperm.symm hflip

/-- Values made of related ones are related. -/
theorem mapValues {β : Type w} {S : β → β → Prop} {f g : κ → α → β} (h : Rearranged R m n)
    (hfg : ∀ k a b, R a b → S (f k a) (g k b)) :
    Rearranged S (m.mapValues f) (n.mapValues g) := by
  obtain ⟨es, hes, hperm⟩ := h
  refine ⟨es.map fun e => (e.1, g e.1 e.2), ?_, hperm.map _⟩
  refine List.forall₂_map_left_iff.2 (List.forall₂_map_right_iff.2 (hes.imp ?_))
  rintro ⟨k, a⟩ ⟨-, b⟩ ⟨rfl, hab⟩
  exact ⟨rfl, hfg k a b hab⟩

/-- A value that is found in one map is related to one found in the other. -/
theorem exists_find? [DecidableEq κ] (h : Rearranged R m n) {k : κ} {a : α}
    (ha : m.find? k = some a) : ∃ b, n.find? k = some b ∧ R a b := by
  obtain ⟨es, hes, hperm⟩ := h
  obtain ⟨⟨_, b⟩, hb, rfl, hab⟩ := exists_mem_of_forall₂ hes (m.mem_entries.2 ha)
  exact ⟨b, n.mem_entries.1 (hperm.mem_iff.1 hb), hab⟩

/-- Maps with related values in any two orders agree. -/
theorem agrees [DecidableEq κ] (h : Rearranged R m n) {same : α → α → Bool}
    (hR : ∀ a b, R a b → same a b = true) : m.agrees same n = true := by
  have hsize : m.size = n.size := by simpa [keys, size] using h.keys_perm.length_eq
  refine Bool.and_eq_true_iff.2 ⟨beq_iff_eq.2 hsize, List.all_eq_true.2 fun e he => ?_⟩
  obtain ⟨b, hb, hab⟩ := h.exists_find? (m.mem_entries.1 he)
  rw [hb]
  exact hR _ _ hab

end Rearranged

end

end EntityModel.OrderedMap
