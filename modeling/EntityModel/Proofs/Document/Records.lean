import EntityModel.Document.Record
import EntityModel.Proofs.Document.Parts
import EntityModel.Proofs.Lists
import EntityModel.Proofs.OrderedMap
import Mathlib.Data.List.Induction

/-!
# Records and maps as documents

A table that gives each name once is read as a record by looking its fields up
(`Document.fields?_table`), and a map is read back from the table that it is written as
(`Document.asMapOf?_toDocument`). What is written for maps, texts and small numbers is plain.
-/

namespace EntityModel

namespace OrderedMap

variable {κ α : Type} [DecidableEq κ]

/-- Entries with distinct keys are the entries of their map. -/
theorem entries_ofList {es : List (κ × α)} (h : (es.map Prod.fst).Nodup) :
    (ofList es).entries = es :=
  entries_insertAll (m := empty) h

theorem ofList_entries (m : OrderedMap κ α) : ofList m.entries = m :=
  ext_entries (entries_ofList m.nodup_keys)

/-- The keys of a list of entries are those of its map, each at its first place. -/
theorem keys_ofList (es : List (κ × α)) : (ofList es).keys = (es.map Prod.fst).eraseDups := by
  rw [← foldl_append_new, List.foldl_map]
  exact (List.foldl_hom keys fun m e => (m.keys_insert e.1 e.2).symm).symm

/-- In the map of a list of entries, the last entry of a key counts. -/
theorem find?_ofList {es : List (κ × α)} {k : κ} {v : α} : (ofList es).find? k = some v ↔
    ∃ before after, es = before ++ (k, v) :: after ∧ k ∉ after.map Prod.fst := by
  have h : (ofList es).find? k = (lookupIn k es.reverse).or none := find?_insertAll empty es k
  rw [h, Option.or_none, lookupIn_reverse_eq_some]

/-- What is looked up is an entry. -/
theorem mem_of_lookupIn {es : List (κ × α)} {k : κ} {v : α} (h : lookupIn k es = some v) :
    (k, v) ∈ es := by
  obtain ⟨before, after, rfl, -⟩ := lookupIn_eq_some.1 h
  exact List.mem_append_right _ (List.mem_cons_self ..)

/-- The entries with a key, if there are not two of them. -/
theorem filter_eq_of_count_le {es : List (κ × α)} {k : κ} (h : (es.map Prod.fst).count k ≤ 1) :
    (es.filter fun e => e.1 == k) = (lookupIn k es).toList.map fun v => (k, v) := by
  induction es with
  | nil => rfl
  | cons e rest ih =>
    obtain ⟨k', v⟩ := e
    rw [List.map_cons, List.count_cons] at h
    by_cases hk : k' = k
    · subst hk
      have hrest : k' ∉ rest.map Prod.fst := by
        rw [if_pos (beq_self_eq_true k')] at h
        exact List.count_eq_zero.1 (by omega)
      have hnone : (rest.filter fun e => e.1 == k') = [] :=
        List.filter_eq_nil_iff.2 fun e he heq =>
          hrest (List.mem_map.2 ⟨e, he, beq_iff_eq.1 heq⟩)
      simp [hnone, lookupIn]
    · rw [if_neg (by simpa using hk)] at h
      rw [List.filter_cons_of_neg (by simpa using hk), ih h, lookupIn, if_neg hk]

end OrderedMap

namespace Document

open OrderedMap (lookupIn)

/-! ## Records -/

/-- A record of the named fields: a table that gives none of them twice, or a list of at most as
many items. -/
def IsRecord (names : List String) : Document → Prop
  | .table members => ∀ name ∈ names, (members.map Prod.fst).count name ≤ 1
  | .list items => items.length ≤ names.length
  | _ => False

instance (names : List String) (d : Document) : Decidable (d.IsRecord names) :=
  match d with
  | .table members =>
    inferInstanceAs (Decidable (∀ name ∈ names, (members.map Prod.fst).count name ≤ 1))
  | .list items => inferInstanceAs (Decidable (items.length ≤ names.length))
  | .null | .bool _ | .number _ | .text _ | .notFinite | .unreadable => .isFalse id

/-- What a record gives for a field: the member of this name, or the item at its place. -/
def field? (names : List String) (d : Document) (name : String) : Option Document :=
  match d with
  | .table members => lookupIn name members
  | .list items => items[names.idxOf name]?
  | _ => none

/-- A name that a table does not give twice is looked up. -/
theorem member?_eq_some {members : List (String × Document)} {name : String}
    {o : Option Document} : member? members name = some o ↔
      (members.map Prod.fst).count name ≤ 1 ∧ o = lookupIn name members := by
  have hcount : (members.map Prod.fst).count name =
      (members.filter fun m => m.1 == name).length := by
    rw [List.count, List.countP_map, List.countP_eq_length_filter]
    rfl
  by_cases h : (members.map Prod.fst).count name ≤ 1
  · have hmember : member? members name = some (lookupIn name members) := by
      rw [member?, OrderedMap.filter_eq_of_count_le h]
      cases lookupIn name members <;> rfl
    simp [hmember, h, eq_comm]
  · have hmember : member? members name = none := by
      rw [hcount] at h
      unfold member?
      split
      · next hfilter => simp [hfilter] at h
      · next m hfilter => simp [hfilter] at h
      · rfl
    simp [hmember, h]

theorem places?_eq_some {surplus : Bool} {n : Nat} {items : List Document}
    {fs : List (Option Document)} :
    places? surplus n items = some fs ↔
      (items.length ≤ n ∨ surplus = true) ∧ fs = (List.range n).map fun i => items[i]? := by
  induction n generalizing items fs with
  | zero => cases items <;> cases surplus <;> simp [places?, eq_comm]
  | succ n ih =>
    rw [List.range_succ_eq_map, List.map_cons, List.map_map]
    cases items with
    | nil =>
      rw [places?, Option.map_eq_some_iff]
      simp [ih, Function.comp_def, eq_comm]
    | cons d rest =>
      rw [places?, Option.map_eq_some_iff]
      simp [ih, Function.comp_def, eq_comm, and_assoc]

/-- A record in a notation where a list may have surplus items, or may not. -/
def IsRecordIn (surplus : Bool) (names : List String) (d : Document) : Prop :=
  d.IsRecord names ∨ surplus = true ∧ ∃ items, d = .list items

theorem isRecordIn_false {names : List String} {d : Document} :
    d.IsRecordIn false names ↔ d.IsRecord names := by
  simp [IsRecordIn]

/-- A record is read field by field. -/
theorem fields?_eq_some {surplus : Bool} {names : List String} (hnames : names.Nodup)
    {d : Document} {fs : List (Option Document)} :
    d.fields? names surplus = some fs ↔
      d.IsRecordIn surplus names ∧ fs = names.map (d.field? names) := by
  cases d with
  | table members =>
    have hrecord : (table members).IsRecordIn surplus names ↔ (table members).IsRecord names :=
      or_iff_left fun ⟨_, _, h⟩ => nomatch h
    rw [hrecord]
    exact mapM_eq_some_iff_map fun name o => member?_eq_some
  | list items =>
    have hrecord : (list items).IsRecordIn surplus names ↔
        items.length ≤ names.length ∨ surplus = true := by
      simp [IsRecordIn, IsRecord]
    have hplaces : (List.range names.length).map (fun i => items[i]?) =
        names.map (field? names (.list items)) := by
      refine List.ext_getElem (by simp) fun i hi hi' => ?_
      rw [List.length_map] at hi'
      have hplace : names.idxOf names[i] = i := hnames.idxOf_getElem i hi'
      simp [field?, hplace]
    rw [fields?, places?_eq_some, hplaces, hrecord]
  | _ => simp [fields?, IsRecordIn, IsRecord]

/-- What is read of a record is read of its fields. -/
theorem bind_fields?_eq_some {α : Type} {surplus : Bool} {names : List String}
    (hnames : names.Nodup) {d : Document} {read : List (Option Document) → Option α} {x : α} :
    (d.fields? names surplus).bind read = some x ↔
      d.IsRecordIn surplus names ∧ read (names.map (d.field? names)) = some x := by
  simp [Option.bind_eq_some_iff, fields?_eq_some hnames, and_assoc]

/-- What a record gives for a field stands in it. -/
theorem holds_of_field? {names : List String} {d e : Document} {name : String}
    (h : d.field? names name = some e) : d.Holds e := by
  unfold field? at h
  split at h
  · exact .member (OrderedMap.mem_of_lookupIn h)
  · exact .item (List.mem_of_getElem? h)
  · cases h

/-! ## Reading back what is written -/

section
variable {α : Type} {read : Document → Option α} {f : α → Document}

/-- The map of a table is that of its members with their values read. -/
theorem asMapOf?_table (members : List (String × Document)) :
    (table members).asMapOf? read =
      (members.mapM fun m => (read m.2).map fun v => (m.1, v)).map OrderedMap.ofList := by
  simp only [asMapOf?, Option.map_eq_bind, Option.bind_eq_bind]
  rfl

/-- What is in a map was read of a member of its table. -/
theorem exists_of_mem_asMapOf? {d : Document} {m : OrderedMap String α}
    (h : d.asMapOf? read = some m) {e : String × α} (he : e ∈ m.entries) :
    ∃ d', d.Holds d' ∧ read d' = some e.2 := by
  cases d with
  | table members =>
    rw [asMapOf?_table] at h
    obtain ⟨es, hes, rfl⟩ := Option.map_eq_some_iff.1 h
    obtain ⟨before, after, hsplit, -⟩ := OrderedMap.find?_ofList.1
      ((OrderedMap.mem_entries _).1 he)
    have hmem : e ∈ es := hsplit ▸ List.mem_append_right _ (List.mem_cons_self ..)
    obtain ⟨m, hm, heq⟩ := exists_of_mem_mapM hes hmem
    obtain ⟨a, ha, rfl⟩ := Option.map_eq_some_iff.1 heq
    exact ⟨m.2, .member hm, ha⟩
  | _ => cases h

/-- A map is read back, if each of its values is. -/
theorem asMapOf?_toDocument {m : OrderedMap String α}
    (h : ∀ e ∈ m.entries, read (f e.2) = some e.2) : (m.toDocument f).asMapOf? read = some m := by
  have hentries : (m.entries.map fun e => (e.1, f e.2)).mapM
      (fun m => (read m.2).map fun v => (m.1, v)) = some m.entries := by
    rw [List.mapM_map, mapM_eq_some]
    refine List.forall₂_same.2 fun e he => ?_
    rw [Function.comp_apply, h e he]
    rfl
  rw [OrderedMap.toDocument, asMapOf?_table, hentries, Option.map_some, OrderedMap.ofList_entries]

/-- A list is read back, if each of its items is. -/
theorem asListOf?_map {xs : List α} (h : ∀ x ∈ xs, read (f x) = some x) :
    (list (xs.map f)).asListOf? read = some xs := by
  rw [asListOf?, List.mapM_map, mapM_eq_some]
  exact List.forall₂_same.2 h

theorem asListOf?_texts (ss : List String) : (texts ss).asListOf? asText? = some ss :=
  asListOf?_map fun _ _ => rfl

theorem asNatBelow?_nat {n bound : Nat} (h : n < bound) : (nat n).asNatBelow? bound = some n := by
  simp [nat, asNatBelow?, Number.toNatBelow?, h]

theorem lt_of_asNatBelow? {d : Document} {n bound : Nat} (h : d.asNatBelow? bound = some n) :
    n < bound := by
  cases d with
  | number x =>
    cases x with
    | int i =>
      obtain ⟨hbounds, heq⟩ := Option.ite_none_right_eq_some.1 h
      simp only [Bool.and_eq_true, decide_eq_true_eq] at hbounds
      obtain rfl := Option.some.inj heq
      omega
    | real x => cases h
  | _ => cases h

end

/-! ## Plain documents -/

section
variable {α : Type} {f : α → Document} {n : Nat}

/-- A map is written without brackets deeper than those of its values and its own. -/
theorem plain_toDocument {m : OrderedMap String α} (h : ∀ e ∈ m.entries, (f e.2).Plain n) :
    (m.toDocument f).Plain (n + 1) :=
  .table (List.forall_mem_map.2 h)

theorem plain_texts (ss : List String) : (texts ss).Plain (n + 1) :=
  .list (List.forall_mem_map.2 fun _ _ => .text _)

theorem plain_nat {k : Nat} (h : k < UInt64.size) : (nat k).Plain n := by
  have hsize : k < 0x10000000000000000 := h
  exact .number ⟨by omega, by omega⟩

theorem plain_optionalMember {name : String} {o : Option α} (h : ∀ x ∈ o, (f x).Plain n) :
    ∀ m ∈ optionalMember name f o, m.2.Plain n := by
  cases o with
  | none => exact List.forall_mem_nil _
  | some x => exact List.forall_mem_singleton.2 (h x rfl)

/-- All of a plain document is readable. -/
theorem Plain.readable {d : Document} (h : d.Plain n) : d.Readable := by
  induction h with
  | list _ ih => exact readable_list.2 ih
  | table _ ih => exact readable_table.2 ih
  | _ => exact fun h => nomatch h

end

end Document

end EntityModel
