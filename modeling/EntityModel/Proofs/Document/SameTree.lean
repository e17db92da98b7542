import EntityModel.Proofs.Document.Records
import EntityModel.Proofs.Document.Values
import Mathlib.Data.List.Sort

/-!
# The same tree in another order

A notation may give the members of a table in another order than they were written in, and nothing
else: it is the same tree (`Document.SameTree`). Such a tree is read as the same value, since a
value has its members sorted, as the same record, and as a map with the same entries in another
order. Each of this is said of what is written for something, by what any such tree is read as
(`Document.Survives`).
-/

namespace EntityModel

namespace Document

open OrderedMap (Rearranged)

/-- Two documents are the same tree of tables, lists and scalars: the members of a table, `others`
after their names, may come in any order. -/
inductive SameTree : Document → Document → Prop
  | null : SameTree .null .null
  | bool (b : Bool) : SameTree (.bool b) (.bool b)
  | number (n : Number) : SameTree (.number n) (.number n)
  | text (s : String) : SameTree (.text s) (.text s)
  | list {items items' : List Document} : List.Forall₂ SameTree items items' →
    SameTree (.list items) (.list items')
  | table {members others members' : List (String × Document)} :
    others.Perm members' → members.map Prod.fst = others.map Prod.fst →
    List.Forall₂ (fun m o => SameTree m.2 o.2) members others →
    SameTree (.table members) (.table members')

/-- The same members in any order. -/
def SameMembers (ms ns : List (String × Document)) : Prop :=
  ∃ os, List.Forall₂ (fun m o => m.1 = o.1 ∧ m.2.SameTree o.2) ms os ∧ os.Perm ns

/-- Whatever is the same tree as what is written for something is read as what is related to it. -/
def Survives {α : Type} (write : α → Document) (read : Document → Option α) (R : α → α → Prop)
    (a : α) : Prop :=
  ∀ d, (write a).SameTree d → ∃ b, read d = some b ∧ R a b

/-! ## Members -/

section
variable {d : Document} {ms ns : List (String × Document)}

/-- The same tree as a table is a table of the same members. -/
theorem SameTree.exists_sameMembers (h : (Document.table ms).SameTree d) :
    ∃ ns, d = .table ns ∧ SameMembers ms ns := by
  cases h with
  | @table _ os ns hperm hnames htrees =>
    refine ⟨ns, rfl, os, ?_, hperm⟩
    clear hperm
    induction htrees with
    | nil => exact .nil
    | cons htree _ ih =>
      rw [List.map_cons, List.map_cons, List.cons.injEq] at hnames
      exact .cons ⟨hnames.1, htree⟩ (ih hnames.2)

theorem SameTree.eq_null (h : d.SameTree .null) : d = .null := by
  cases h
  rfl

namespace SameMembers

theorem map_fst_eq {os : List (String × Document)}
    (h : List.Forall₂ (fun m o => m.1 = o.1 ∧ m.2.SameTree o.2) ms os) :
    ms.map Prod.fst = os.map Prod.fst :=
  map_eq_of_forall₂ (h.imp fun _ _ hmo => hmo.1)

/-- Members in another order have the same names. -/
theorem perm_map_fst (h : SameMembers ms ns) : (ms.map Prod.fst).Perm (ns.map Prod.fst) := by
  obtain ⟨os, hforall, hperm⟩ := h
  exact map_fst_eq hforall ▸ hperm.map Prod.fst

theorem sameTree (h : SameMembers ms ns) : (table ms).SameTree (table ns) := by
  obtain ⟨os, hforall, hperm⟩ := h
  exact .table hperm (map_fst_eq hforall) (hforall.imp fun _ _ h => h.2)

/-- The members with certain names are the same, too. -/
theorem filter (h : SameMembers ms ns) (p : String → Bool) :
    SameMembers (ms.filter fun m => p m.1) (ns.filter fun m => p m.1) := by
  obtain ⟨os, hforall, hperm⟩ := h
  refine ⟨os.filter fun m => p m.1, List.rel_filter ?_ hforall, hperm.filter _⟩
  rintro m o ⟨hname, -⟩
  exact iff_of_eq (congrArg (p · = true) hname)

/-- What a name is looked up as in both is the same tree. -/
theorem lookupIn (h : SameMembers ms ns) (hms : (ms.map Prod.fst).Nodup) (name : String) :
    Option.Rel SameTree (OrderedMap.lookupIn name ms) (OrderedMap.lookupIn name ns) := by
  have hns : (ns.map Prod.fst).Nodup := h.perm_map_fst.nodup_iff.1 hms
  obtain ⟨os, hforall, hperm⟩ := h
  rw [OrderedMap.lookupIn_of_perm hns hperm.symm]
  clear hms hns hperm
  induction hforall with
  | nil => exact .none
  | @cons m o _ _ hmo _ ih =>
    obtain ⟨k, d⟩ := m
    obtain ⟨k', e⟩ := o
    obtain ⟨rfl, htree⟩ := hmo
    rw [OrderedMap.lookupIn, OrderedMap.lookupIn]
    split
    · exact .some htree
    · exact ih

variable {α : Type} {write : α → Document} {read : Document → Option α} {R : α → α → Prop}

/-- Where the value of each member survives, the members are read as related ones in another
order. -/
theorem exists_mapM {es : List (String × α)}
    (h : SameMembers (es.map fun e => (e.1, write e.2)) ns)
    (hes : ∀ e ∈ es, Survives write read R e.2) :
    ∃ fs fs', ns.mapM (fun m => (read m.2).map fun b => (m.1, b)) = some fs' ∧
      List.Forall₂ (fun e f => e.1 = f.1 ∧ R e.2 f.2) es fs ∧ fs.Perm fs' := by
  obtain ⟨os, hforall, hperm⟩ := h
  obtain ⟨fs, hfs, hrelated⟩ := exists_mapM_of_forall₂
    (f := fun m => (read m.2).map fun b => (m.1, b)) (s := fun e f => e.1 = f.1 ∧ R e.2 f.2)
    (List.forall₂_map_left_iff.1 hforall) fun e he o ho => by
      obtain ⟨b, hb, hab⟩ := hes e he o.2 ho.2
      exact ⟨(o.1, b), by rw [hb]; rfl, ho.1, hab⟩
  obtain ⟨fs', hfs', hperm'⟩ := exists_mapM_of_perm hfs hperm
  exact ⟨fs, fs', hfs', hrelated, hperm'⟩

end SameMembers

end

/-! ## Values and maps -/

section
variable {α : Type} {write : α → Document} {read : Document → Option α} {R : α → α → Prop}

theorem survives_text (s : String) : Survives .text asText? Eq s := by
  intro d h
  cases h
  exact ⟨s, rfl, rfl⟩

theorem survives_nat {n bound : Nat} (h : n < bound) : Survives nat (asNatBelow? bound) Eq n := by
  intro d hd
  cases hd
  exact ⟨n, asNatBelow?_nat h, rfl⟩

/-- A value whose tables are sorted is read of any order of their members. -/
theorem survives_value {v : Value} (hv : v.Canonical) :
    Survives Value.toDocument toValue? Eq v := by
  induction hv with
  | null | bool | number | text =>
    intro d h
    cases h
    exact ⟨_, rfl, rfl⟩
  | @list items _ ih =>
    intro d h
    rw [Value.toDocument_list] at h
    cases h with
    | list hforall =>
      obtain ⟨vs, hvs, heq⟩ :=
        exists_mapM_of_forall₂ (List.forall₂_map_left_iff.1 hforall) fun v hv => ih v hv
      rw [List.forall₂_eq_eq_eq] at heq
      exact ⟨.list vs, by rw [toValue?_list, hvs]; rfl, congrArg _ heq⟩
  | @table members hsorted _ ih =>
    intro d h
    rw [Value.toDocument_table] at h
    obtain ⟨ns, rfl, hns⟩ := h.exists_sameMembers
    obtain ⟨vs, ms, hms, heq, hperm⟩ := hns.exists_mapM ih
    obtain rfl : members = vs := by
      rw [← List.forall₂_eq_eq_eq]
      exact heq.imp fun _ _ h => Prod.ext h.1 h.2
    have hnames : (ms.map Prod.fst).Nodup := (hperm.map Prod.fst).nodup_iff.1 hsorted.nodup
    refine ⟨.table (Value.sortMembers ms), ?_, congrArg _ ?_⟩
    · rw [toValue?_table, toMembers?_eq, hms]
      rfl
    · refine (hperm.trans (Value.perm_sortMembers hnames).symm).eq_of_pairwise ?_ hsorted
        Value.sorted_sortMembers
      exact fun _ _ _ _ hlt hgt => absurd hgt hlt.not_gt

/-- A map is read as one with related values in another order. -/
theorem Survives.map {m : OrderedMap String α} (h : ∀ e ∈ m.entries, Survives write read R e.2) :
    Survives (fun m => m.toDocument write) (asMapOf? read) (Rearranged R) m := by
  intro d hd
  obtain ⟨ns, rfl, hns⟩ := SameTree.exists_sameMembers hd
  obtain ⟨es, es', hes, hforall, hperm⟩ := hns.exists_mapM h
  have hkeys : (es'.map Prod.fst).Nodup := by
    rw [map_fst_of_mapM hes, ← hns.perm_map_fst.nodup_iff, List.map_map]
    exact m.nodup_keys
  refine ⟨OrderedMap.ofList es', by rw [asMapOf?_table, hes]; rfl, es, hforall, ?_⟩
  rw [OrderedMap.entries_ofList hkeys]
  exact hperm

end

/-! ## Records -/

section
variable {α : Type} {write : α → Document} {read : Document → Option α} {R : α → α → Prop}
  {d : Document} {ms : List (String × Document)} {o : Option Document}

/-- The same tree as a table that gives no name twice is a record with the same fields. -/
theorem SameTree.isRecord (names : List String) (h : (Document.table ms).SameTree d)
    (hms : (ms.map Prod.fst).Nodup) : d.IsRecord names ∧ ∀ name,
      Option.Rel SameTree ((Document.table ms).field? names name) (d.field? names name) := by
  obtain ⟨ns, rfl, hns⟩ := h.exists_sameMembers
  exact ⟨fun name _ => List.nodup_iff_count_le_one.1 (hns.perm_map_fst.nodup_iff.1 hms) name,
    hns.lookupIn hms⟩

/-- A field is read as what is related to what was written for it. -/
theorem Survives.field {a : α} (ha : Survives write read R a)
    (h : Option.Rel SameTree (some (write a)) o) : ∃ d b, o = some d ∧ read d = some b ∧ R a b := by
  cases h with
  | some htree =>
    obtain ⟨b, hb, hab⟩ := ha _ htree
    exact ⟨_, b, rfl, hb, hab⟩

/-- A field that must be there is read. -/
theorem Survives.required {a : α} (ha : Survives write read R a)
    (h : Option.Rel SameTree (some (write a)) o) : ∃ b, required? read o = some b ∧ R a b := by
  obtain ⟨d, b, rfl, hb, hab⟩ := ha.field h
  exact ⟨b, hb, hab⟩

/-- The default does not stand in for a field that is there. -/
theorem Survives.withDefault {a default : α} (ha : Survives write read R a)
    (h : Option.Rel SameTree (some (write a)) o) :
    ∃ b, withDefault? default read o = some b ∧ R a b := by
  obtain ⟨d, b, rfl, hb, hab⟩ := ha.field h
  exact ⟨b, hb, hab⟩

/-- A field that may be missing is read as it was, if it is not null, which would mean that it is
missing. -/
theorem Survives.optional {x : Option α} (hx : ∀ a ∈ x, Survives write read Eq a)
    (hnull : ∀ a ∈ x, write a ≠ .null) (h : Option.Rel SameTree (x.map write) o) :
    optional? read o = some x := by
  cases x with
  | none =>
    cases h
    rfl
  | some a =>
    obtain ⟨d, b, rfl, hb, rfl⟩ := (hx a rfl).field h
    rw [optional?, hb]
    · rfl
    · rintro rfl
      cases h with
      | some htree => exact hnull a rfl htree.eq_null

end

end Document

end EntityModel
