import EntityModel.Proofs.Document.Parts
import EntityModel.Proofs.Lists
import Mathlib.Data.List.Induction
import Mathlib.Data.String.Basic

/-!
# Loose values and their documents

A document has a loose value exactly if it is readable (`Document.exists_toValue?`). The value has
the members of every table sorted by name (`Value.Canonical`), and such a value is the one that its
own document has (`Value.Canonical.toValue?_toDocument`).
-/

namespace EntityModel

namespace Value

/-! ## Sorted members -/

/-- The members are sorted by name, each name once. -/
def Sorted {α : Type} (ms : List (String × α)) : Prop := ms.Pairwise fun m m' => m.1 < m'.1

section
variable {k : String} {v : Value} {ms : List (String × Value)}

theorem mem_setMember {m : String × Value} (h : m ∈ setMember k v ms) : m = (k, v) ∨ m ∈ ms := by
  induction ms with
  | nil => exact .inl (List.mem_singleton.1 h)
  | cons m' rest ih =>
    rw [setMember] at h
    split_ifs at h
    · exact (List.mem_cons.1 h).imp_right (List.mem_cons_of_mem _)
    · exact List.mem_cons.1 h
    · rcases List.mem_cons.1 h with rfl | h
      · exact .inr (List.mem_cons_self ..)
      · exact (ih h).imp_right (List.mem_cons_of_mem _)

theorem sorted_setMember (h : Sorted ms) : Sorted (setMember k v ms) := by
  induction ms with
  | nil => exact List.pairwise_singleton ..
  | cons m rest ih =>
    obtain ⟨hm, hrest⟩ := List.pairwise_cons.1 h
    rw [setMember]
    split_ifs with heq hlt
    · exact List.pairwise_cons.2 ⟨heq ▸ hm, hrest⟩
    · refine List.pairwise_cons.2 ⟨fun m' hm' => ?_, h⟩
      rcases List.mem_cons.1 hm' with rfl | hm'
      · exact hlt
      · exact lt_trans hlt (hm m' hm')
    · refine List.pairwise_cons.2 ⟨fun m' hm' => ?_, ih hrest⟩
      rcases mem_setMember hm' with rfl | hm'
      · exact (lt_trichotomy m.1 k).resolve_right fun h => h.elim (heq ∘ Eq.symm) hlt
      · exact hm m' hm'

/-- A new name is put between the others. -/
theorem perm_setMember (h : k ∉ ms.map Prod.fst) : (setMember k v ms).Perm ((k, v) :: ms) := by
  induction ms with
  | nil => exact .refl _
  | cons m rest ih =>
    rw [List.map_cons, List.mem_cons, not_or] at h
    rw [setMember, if_neg h.1]
    split
    · exact .refl _
    · exact ((ih h.2).cons m).trans (.swap ..)

/-- A name behind all others goes to the end. -/
theorem setMember_of_lt (h : ∀ m ∈ ms, m.1 < k) : setMember k v ms = ms ++ [(k, v)] := by
  induction ms with
  | nil => rfl
  | cons m rest ih =>
    obtain ⟨hm, hrest⟩ := List.forall_mem_cons.1 h
    rw [setMember, if_neg hm.ne', if_neg hm.not_gt, ih hrest, List.cons_append]

end

section
variable {ms : List (String × Value)}

theorem sorted_sortMembers : Sorted (sortMembers ms) :=
  List.foldlRecOn ms _ List.Pairwise.nil fun _ h _ _ => sorted_setMember h

/-- Sorting adds no member. -/
theorem mem_of_mem_sortMembers {m : String × Value} (h : m ∈ sortMembers ms) : m ∈ ms := by
  refine List.foldlRecOn ms _ (motive := fun acc => ∀ m ∈ acc, m ∈ ms)
    (fun _ h => absurd h List.not_mem_nil) (fun acc hacc m' hm' m hm => ?_) m h
  rcases mem_setMember hm with rfl | hm
  · exact hm'
  · exact hacc m hm

/-- Members with distinct names are only rearranged. -/
theorem perm_sortMembers (h : (ms.map Prod.fst).Nodup) : (sortMembers ms).Perm ms := by
  induction ms using List.reverseRecOn with
  | nil => exact .refl _
  | append_singleton ms m ih =>
    rw [List.map_append, List.nodup_append] at h
    have hperm := ih h.1
    have hnew : m.1 ∉ (sortMembers ms).map Prod.fst := fun hm =>
      h.2.2 _ ((hperm.map _).mem_iff.1 hm) m.1 (by simp) rfl
    rw [sortMembers, List.foldl_append]
    exact (perm_setMember hnew).trans ((hperm.cons m).trans (List.perm_append_singleton ..).symm)

/-- Sorted members stay where they are. -/
theorem sortMembers_of_sorted (h : Sorted ms) : sortMembers ms = ms := by
  induction ms using List.reverseRecOn with
  | nil => rfl
  | append_singleton ms m ih =>
    obtain ⟨hms, -, hlast⟩ := List.pairwise_append.1 h
    have hrest : ms.foldl (fun acc m => setMember m.1 m.2 acc) [] = ms := ih hms
    rw [sortMembers, List.foldl_append, hrest]
    exact setMember_of_lt fun m' hm' => hlast m' hm' m (List.mem_singleton_self m)

theorem Sorted.nodup {α : Type} {ms : List (String × α)} (h : Sorted ms) :
    (ms.map Prod.fst).Nodup :=
  List.pairwise_map.2 (h.imp fun hlt => hlt.ne)

end

/-! ## Values as documents -/

theorem toDocument_list (items : List Value) :
    (Value.list items).toDocument = .list (items.map toDocument) := by
  have h : ∀ vs, toDocuments vs = vs.map toDocument := fun vs => by
    induction vs with
    | nil => rfl
    | cons v rest ih => rw [toDocuments, ih, List.map_cons]
  rw [toDocument, h]

theorem toDocument_table (members : List (String × Value)) :
    (Value.table members).toDocument = .table (members.map fun m => (m.1, m.2.toDocument)) := by
  have h : ∀ ms, toDocumentMembers ms = ms.map fun m => (m.1, m.2.toDocument) := fun ms => by
    induction ms with
    | nil => rfl
    | cons m rest ih => rw [toDocumentMembers, ih, List.map_cons]
  rw [toDocument, h]

/-- Only null is written as null. -/
theorem toDocument_ne_null {v : Value} (h : v ≠ .null) : v.toDocument ≠ .null := by
  cases v with
  | null => exact absurd rfl h
  | _ => exact fun heq => nomatch heq

/-- A value as reading makes it: the members of its tables are sorted. -/
inductive Canonical : Value → Prop
  | null : Canonical .null
  | bool (b : Bool) : Canonical (.bool b)
  | number (n : Number) : Canonical (.number n)
  | text (s : String) : Canonical (.text s)
  | list {items : List Value} : (∀ v ∈ items, Canonical v) → Canonical (.list items)
  | table {members : List (String × Value)} : Sorted members → (∀ m ∈ members, Canonical m.2) →
    Canonical (.table members)

end Value

namespace Document

/-! ## Documents as values -/

theorem toValue?_list (items : List Document) :
    (list items).toValue? = (items.mapM toValue?).map .list := by
  have h : ∀ ds, toValues? ds = ds.mapM toValue? := fun ds => by
    induction ds with
    | nil => rfl
    | cons d rest ih => rw [toValues?, ih, List.mapM_cons]
  rw [toValue?, h]

theorem toMembers?_eq (members : List (String × Document)) :
    toMembers? members = members.mapM fun m => m.2.toValue?.map fun v => (m.1, v) := by
  induction members with
  | nil => rfl
  | cons m rest ih =>
    rw [toMembers?, ih, List.mapM_cons]
    cases m.2.toValue? <;> rfl

theorem toValue?_table (members : List (String × Document)) :
    (table members).toValue? =
      (toMembers? members).map fun ms => .table (Value.sortMembers ms) :=
  rfl

/-- A document has a value if it is readable. -/
theorem exists_toValue? {d : Document} : (∃ v, d.toValue? = some v) ↔ d.Readable := by
  induction d using rec_parts with
  | list items ih =>
    have hitems : (∃ vs, items.mapM toValue? = some vs) ↔ ∀ d ∈ items, d.Readable :=
      exists_mapM_eq_some.trans (forall₂_congr ih)
    rw [readable_list, ← hitems]
    simp [toValue?_list]
  | table members ih =>
    have hmembers : (∃ ms, toMembers? members = some ms) ↔ ∀ m ∈ members, m.2.Readable := by
      rw [toMembers?_eq, exists_mapM_eq_some]
      exact forall₂_congr fun m hm => by rw [← ih m hm]; simp
    rw [readable_table, ← hmembers]
    simp [toValue?_table]
  | unreadable => exact iff_of_false (fun ⟨_, h⟩ => nomatch h) fun h => h .self
  | _ => exact iff_of_true ⟨_, rfl⟩ fun h => nomatch h

/-- Reading a member keeps its name. -/
theorem map_fst_of_toMembers? {members : List (String × Document)} {ms : List (String × Value)}
    (h : toMembers? members = some ms) : ms.map Prod.fst = members.map Prod.fst :=
  map_fst_of_mapM (toMembers?_eq members ▸ h)

/-- A member that is read was written. -/
theorem mem_of_toMembers? {members : List (String × Document)} {ms : List (String × Value)}
    (h : toMembers? members = some ms) {k : String} {v : Value} (hm : (k, v) ∈ ms) :
    ∃ d, (k, d) ∈ members ∧ d.toValue? = some v := by
  rw [toMembers?_eq] at h
  obtain ⟨⟨k', d⟩, hmem, hd⟩ := exists_of_mem_mapM h hm
  obtain ⟨v', hv, heq⟩ := Option.map_eq_some_iff.1 hd
  cases heq
  exact ⟨d, hmem, hv⟩

/-- A member that was written is read. -/
theorem exists_of_mem_members {members : List (String × Document)} {ms : List (String × Value)}
    (h : toMembers? members = some ms) {m : String × Document} (hm : m ∈ members) :
    ∃ v, m.2.toValue? = some v ∧ (m.1, v) ∈ ms := by
  rw [toMembers?_eq] at h
  obtain ⟨m', hm', heq⟩ := exists_mem_of_mapM h hm
  obtain ⟨v, hv, rfl⟩ := Option.map_eq_some_iff.1 heq
  exact ⟨v, hv, hm'⟩

/-- Reading sorts the members of tables. -/
theorem canonical_of_toValue? {d : Document} {v : Value} (h : d.toValue? = some v) :
    v.Canonical := by
  induction d using rec_parts generalizing v with
  | null | notFinite => cases h; exact .null
  | bool b => cases h; exact .bool b
  | number n => cases h; exact .number n
  | text s => cases h; exact .text s
  | unreadable => cases h
  | list items ih =>
    rw [toValue?_list] at h
    obtain ⟨vs, hvs, rfl⟩ := Option.map_eq_some_iff.1 h
    refine .list fun v hv => ?_
    obtain ⟨d, hd, hdv⟩ := exists_of_mem_mapM hvs hv
    exact ih d hd hdv
  | table members ih =>
    obtain ⟨ms, hms, rfl⟩ := Option.map_eq_some_iff.1 h
    refine .table Value.sorted_sortMembers fun m hm => ?_
    obtain ⟨d, hd, hdv⟩ := mem_of_toMembers? hms (Value.mem_of_mem_sortMembers hm)
    exact ih _ hd hdv

/-- The value of a document is written without brackets that are nested more deeply. -/
theorem parsed_of_toValue? {d : Document} {v : Value} {n : Nat} (h : d.toValue? = some v)
    (hd : d.Parsed n) : v.toDocument.Parsed n := by
  induction hd generalizing v with
  | null => cases h; exact .null
  | bool b => cases h; exact .bool b
  | number k => cases h; exact .number k
  | text s => cases h; exact .text s
  | unreadable => cases h
  | @list n items _ ih =>
    rw [toValue?_list] at h
    obtain ⟨vs, hvs, rfl⟩ := Option.map_eq_some_iff.1 h
    rw [Value.toDocument_list]
    refine .list (List.forall_mem_map.2 fun v hv => ?_)
    obtain ⟨d, hd, hdv⟩ := exists_of_mem_mapM hvs hv
    exact ih d hd hdv
  | @table n members _ ih =>
    obtain ⟨ms, hms, rfl⟩ := Option.map_eq_some_iff.1 h
    rw [Value.toDocument_table]
    refine .table (List.forall_mem_map.2 fun m hm => ?_)
    obtain ⟨d, hd, hdv⟩ := mem_of_toMembers? hms (Value.mem_of_mem_sortMembers hm)
    exact ih _ hd hdv

/-- The value of a document of whole numbers is written as a plain document, whose brackets are
nested no deeper. -/
theorem plain_of_toValue? {d : Document} {v : Value} {n : Nat} (h : d.toValue? = some v)
    (hd : d.Parsed n) (hwhole : d.WholeNumbers) : v.toDocument.Plain n := by
  induction hd generalizing v with
  | null => cases h; exact .null
  | bool b => cases h; exact .bool b
  | number k => cases h; exact .number (hwhole k .self)
  | text s => cases h; exact .text s
  | unreadable => cases h
  | @list n items _ ih =>
    rw [toValue?_list] at h
    obtain ⟨vs, hvs, rfl⟩ := Option.map_eq_some_iff.1 h
    rw [Value.toDocument_list]
    refine .list (List.forall_mem_map.2 fun v hv => ?_)
    obtain ⟨d, hd, hdv⟩ := exists_of_mem_mapM hvs hv
    exact ih d hd hdv (hwhole.of_holds (.item hd))
  | @table n members _ ih =>
    obtain ⟨ms, hms, rfl⟩ := Option.map_eq_some_iff.1 h
    rw [Value.toDocument_table]
    refine .table (List.forall_mem_map.2 fun m hm => ?_)
    obtain ⟨d, hd, hdv⟩ := mem_of_toMembers? hms (Value.mem_of_mem_sortMembers hm)
    exact ih _ hd hdv (hwhole.of_holds (.member hd))

end Document

/-- A value whose tables are sorted is what its own document is read as. -/
theorem Value.Canonical.toValue?_toDocument {v : Value} (h : v.Canonical) :
    v.toDocument.toValue? = some v := by
  induction h with
  | null | bool | number | text => rfl
  | @list items _ ih =>
    have hitems : (items.map toDocument).mapM Document.toValue? = some items := by
      rw [List.mapM_map, mapM_eq_some]
      exact List.forall₂_same.2 ih
    rw [toDocument_list, Document.toValue?_list, hitems]
    rfl
  | @table members hsorted _ ih =>
    have hmembers :
        Document.toMembers? (members.map fun m => (m.1, m.2.toDocument)) = some members := by
      rw [Document.toMembers?_eq, List.mapM_map, mapM_eq_some]
      refine List.forall₂_same.2 fun m hm => ?_
      rw [Function.comp_apply, ih m hm]
      rfl
    rw [toDocument_table, Document.toValue?_table, hmembers, Option.map_some,
      sortMembers_of_sorted hsorted]

end EntityModel
