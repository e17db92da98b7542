import EntityModel.Proofs.Json.RoundTrip
import EntityModel.Proofs.Model.Grammar

/-!
# Models are read back

A model that was read from a text is read again from the JSON that it is written as
(`Model.read?_toJson_of_read?`), if the text repeats no name in a table and has no numbers that were
rounded. Each part of a model is shown to read back (`Document.ReadsBack`): what is written for it
is plain, and is read as that part.

What is at stake is the form of attributes and references. A shorthand is written as its value,
whose tables are sorted by then, and it must not be read as the full form. Whether a document has
the full form can be told from its value (`ReferenceConfig.isFull_of_toDocument`), so a shorthand
stays one.
-/

namespace EntityModel

namespace Document

/-! ## What can be written without a loss -/

/-- A document as it is read from JSON that gives no name twice and has whole numbers only. -/
structure Tidy (n : Nat) (d : Document) : Prop where
  parsed : d.Parsed n
  distinct : d.DistinctNames
  whole : d.WholeNumbers

/-- What is written has no more than these brackets, and it is read as what was written. -/
structure ReadsBack {α : Type} (read : Document → Option α) (write : α → Document) (n : Nat)
    (x : α) : Prop where
  plain : (write x).Plain n
  read_write : read (write x) = some x

section
variable {n : Nat} {d e : Document} {v : Value}

theorem Tidy.of_holds (h : d.Tidy (n + 1)) (he : d.Holds e) : e.Tidy n :=
  ⟨h.parsed.of_holds he, h.distinct.of_holds he, h.whole.of_holds he⟩

theorem Tidy.field? (h : d.Tidy (n + 1)) (names : List String) (name : String) :
    ∀ e ∈ d.field? names name, e.Tidy n :=
  fun _ he => h.of_holds (holds_of_field? he)

/-- The value of a document is read back from its own document. -/
theorem Tidy.readsBack (h : d.Tidy n) (hv : d.toValue? = some v) :
    ReadsBack toValue? Value.toDocument n v :=
  ⟨plain_of_toValue? hv h.parsed h.whole, (canonical_of_toValue? hv).toValue?_toDocument⟩

end

/-! ## The value of a document with distinct names -/

section
variable {d e : Document} {v : Value} {names : List String} {name : String}

/-- Only null has the value null, among what is read from JSON. -/
theorem toDocument_ne_null {n : Nat} (hd : d.Parsed n) (hne : d ≠ .null)
    (hv : d.toValue? = some v) : v.toDocument ≠ .null := by
  cases hd with
  | null => exact absurd rfl hne
  | unreadable => cases hv
  | list _ =>
    rw [toValue?_list] at hv
    obtain ⟨vs, -, rfl⟩ := Option.map_eq_some_iff.1 hv
    exact fun h => nomatch h
  | table _ =>
    obtain ⟨ms, -, rfl⟩ := Option.map_eq_some_iff.1 hv
    exact fun h => nomatch h
  | _ =>
    cases hv
    exact fun h => nomatch h

/-- What has a table for its value is a table. -/
theorem eq_table_of_toValue? {ms : List (String × Document)} (hv : d.toValue? = some v)
    (h : v.toDocument = .table ms) : ∃ members, d = .table members := by
  cases d with
  | table members => exact ⟨members, rfl⟩
  | list items =>
    rw [toValue?_list] at hv
    obtain ⟨vs, -, rfl⟩ := Option.map_eq_some_iff.1 hv
    exact nomatch h
  | unreadable => cases hv
  | _ =>
    cases hv
    exact nomatch h

/-- A table that gives no name twice is a record, whatever its fields are. -/
theorem isRecord_of_nodup {members : List (String × Document)}
    (h : (members.map Prod.fst).Nodup) : (table members).IsRecord names :=
  fun name _ => List.nodup_iff_count_le_one.1 h name

/-- Sorting the members of a table changes neither their names nor their values. -/
theorem exists_members_toDocument {members : List (String × Document)}
    (hd : (table members).DistinctNames) (hv : (table members).toValue? = some v) :
    ∃ ms, v.toDocument = .table ms ∧ (ms.map Prod.fst).Nodup ∧
      ∀ m ∈ members, ∃ w, m.2.toValue? = some w ∧ (m.1, w.toDocument) ∈ ms := by
  obtain ⟨vs, hvs, rfl⟩ := Option.map_eq_some_iff.1 hv
  have hnames : (vs.map Prod.fst).Nodup := map_fst_of_toMembers? hvs ▸ hd members .self
  refine ⟨_, Value.toDocument_table _, ?_, fun m hm => ?_⟩
  · rw [List.map_map]
    exact Value.sorted_sortMembers.nodup
  · obtain ⟨w, hw, hmem⟩ := exists_of_mem_members hvs hm
    exact ⟨w, hw, List.mem_map.2 ⟨_, (Value.perm_sortMembers hnames).mem_iff.2 hmem, rfl⟩⟩

/-- What is a record as a value is one as it was written. -/
theorem isRecord_of_toDocument (hd : d.DistinctNames) (hv : d.toValue? = some v)
    (h : v.toDocument.IsRecord names) : d.IsRecord names := by
  cases d with
  | table members => exact isRecord_of_nodup (hd members .self)
  | list items =>
    rw [toValue?_list] at hv
    obtain ⟨vs, hvs, rfl⟩ := Option.map_eq_some_iff.1 hv
    have hlength : items.length = vs.length := (mapM_eq_some.1 hvs).length_eq
    rw [Value.toDocument_list, IsRecord, List.length_map, ← hlength] at h
    exact h
  | unreadable => cases hv
  | _ =>
    cases hv
    exact h

/-- The value of a record has the value of a field for that field. -/
theorem field?_toDocument (hd : d.DistinctNames) (hv : d.toValue? = some v)
    (he : d.field? names name = some e) :
    ∃ w, e.toValue? = some w ∧ v.toDocument.field? names name = some w.toDocument := by
  cases d with
  | table members =>
    obtain ⟨ms, hms, hnodup, hmembers⟩ := exists_members_toDocument hd hv
    obtain ⟨w, hw, hmem⟩ := hmembers _ (OrderedMap.mem_of_lookupIn he)
    rw [hms]
    exact ⟨w, hw, (OrderedMap.mem_iff_lookupIn hnodup).1 hmem⟩
  | list items =>
    rw [toValue?_list] at hv
    obtain ⟨vs, hvs, rfl⟩ := Option.map_eq_some_iff.1 hv
    obtain ⟨hi, heq⟩ := List.getElem?_eq_some_iff.1 he
    obtain ⟨hlength, hget⟩ := List.forall₂_iff_get.1 (mapM_eq_some.1 hvs)
    have hw := hget _ hi (hlength ▸ hi)
    rw [Value.toDocument_list, field?, List.getElem?_map, List.getElem?_eq_getElem (hlength ▸ hi)]
    refine ⟨_, heq ▸ hw, rfl⟩
  | _ => cases he

end

/-! ## Fields and maps -/

section
variable {α : Type} {read : Document → Option α} {write : α → Document} {n : Nat}
  {o : Option Document}

/-- A value that may be missing is read back: it is not null, which would be read as if there were
none. -/
structure OptionalReadsBack (n : Nat) (v : Option Value) : Prop where
  ne_null : v ≠ some .null
  value : ∀ w ∈ v, ReadsBack toValue? Value.toDocument n w

theorem OptionalReadsBack.optional? {v : Option Value} (h : OptionalReadsBack n v) :
    optional? toValue? (v.map Value.toDocument) = some v := by
  cases v with
  | none => rfl
  | some w =>
    have hw : w ≠ .null := fun hnull => h.ne_null (congrArg some hnull)
    exact optional?_eq_some.2 (.value (Value.toDocument_ne_null hw) (h.value w rfl).read_write)

theorem OptionalReadsBack.plain {name : String} {v : Option Value} (h : OptionalReadsBack n v) :
    ∀ m ∈ optionalMember name Value.toDocument v, m.2.Plain n :=
  plain_optionalMember fun w hw => (h.value w hw).plain

/-- A value that may be missing is read of what is written there. -/
theorem OptionalValue.exists_toValue? {w : Value} (h : OptionalValue o (some w)) :
    ∃ d, o = some d ∧ d.toValue? = some w := by
  cases h with
  | @value d _ _ hv => exact ⟨d, rfl, hv⟩

/-- What is read of JSON as a value that may be missing is not null. -/
theorem OptionalValue.ne_null {v : Option Value} (ho : ∀ d ∈ o, d.Parsed n)
    (h : OptionalValue o v) : v ≠ some .null := by
  rintro rfl
  cases h with
  | @value d _ hd hv => exact toDocument_ne_null (ho d rfl) hd hv rfl

/-- What is read of a field that may be missing is read back. -/
theorem OptionalValue.readsBack {v : Option Value} (ho : ∀ d ∈ o, d.Tidy n)
    (h : OptionalValue o v) : OptionalReadsBack n v := by
  refine ⟨h.ne_null fun d hd => (ho d hd).parsed, fun w hw => ?_⟩
  obtain rfl : v = some w := hw
  obtain ⟨d, hd, hv⟩ := h.exists_toValue?
  exact (ho d hd).readsBack hv

theorem freeText?_map (t : Option String) : freeText? (t.map Document.text) = some t := by
  cases t <;> rfl

/-- A member that may be missing gives no other name than its own. -/
theorem sublist_map_fst_optionalMember (name : String) (x : Option α) :
    ((optionalMember name write x).map Prod.fst).Sublist [name] := by
  cases x with
  | none => exact List.nil_sublist _
  | some x => exact List.Sublist.refl _

/-- A map is read back, if each of its values is. -/
theorem ReadsBack.entries {m : OrderedMap String α}
    (h : ∀ e ∈ m.entries, ReadsBack read write n e.2) :
    ReadsBack (asMapOf? read) (fun m => m.toDocument write) (n + 1) m :=
  ⟨plain_toDocument fun e he => (h e he).plain,
    asMapOf?_toDocument fun e he => (h e he).read_write⟩

/-- What is read of the members of a table is read back as a map. -/
theorem ReadsBack.map {members : List (String × Document)} {m : OrderedMap String α}
    (hmembers : ∀ m ∈ members, m.2.Tidy n) (h : (table members).asMapOf? read = some m)
    (hread : ∀ d a, d.Tidy n → read d = some a → ReadsBack read write n a) :
    ReadsBack (asMapOf? read) (fun m => m.toDocument write) (n + 1) m := by
  refine .entries fun e he => ?_
  obtain ⟨d, ⟨⟩ | hm, ha⟩ := exists_of_mem_asMapOf? h he
  exact hread _ _ (hmembers _ hm) ha

/-- A map that may be missing is read back from what is always written for it. -/
theorem ReadsBack.optionalMap {m : OrderedMap String α} (ho : ∀ d ∈ o, d.Tidy (n + 1))
    (h : withDefault? .empty (asMapOf? read) o = some m)
    (hread : ∀ d a, d.Tidy n → read d = some a → ReadsBack read write n a) :
    ReadsBack (asMapOf? read) (fun m => m.toDocument write) (n + 1) m := by
  cases o with
  | none =>
    obtain rfl := Option.some.inj h
    exact ⟨plain_toDocument fun _ he => (nomatch he), asMapOf?_toDocument fun _ he => (nomatch he)⟩
  | some d =>
    obtain ⟨members, rfl, -⟩ := exists_withDefault?.1 ⟨m, h⟩ d rfl
    exact .map (fun m hm => (ho _ rfl).of_holds (.member hm)) h hread

end

end Document

open Document (Tidy ReadsBack)

variable {n : Nat} {d : Document}

/-! ## References -/

/-- An annotation is read back, if its two values are. -/
theorem Annotation.readsBack_of_values {a : Annotation}
    (hbound : Document.OptionalReadsBack n a.upperBound)
    (htype : Document.OptionalReadsBack n a.referenceType) :
    ReadsBack ofDocument? toDocument (n + 1) a := by
  have hrecord : a.toDocument.IsRecord fields := by
    refine Document.isRecord_of_nodup (List.Nodup.sublist ?_ (show fields.Nodup by decide))
    rw [List.map_append]
    exact (Document.sublist_map_fst_optionalMember ..).append
      (Document.sublist_map_fst_optionalMember ..)
  have hfields : a.toDocument.field? fields "upper_bound" = a.upperBound.map Value.toDocument ∧
      a.toDocument.field? fields "reference_type" = a.referenceType.map Value.toDocument := by
    obtain ⟨_ | bound, _ | type⟩ := a <;> exact ⟨rfl, rfl⟩
  refine ⟨.table (List.forall_mem_append.2 ⟨hbound.plain, htype.plain⟩),
    ofDocument?_eq_some.2 ⟨hrecord, ?_, ?_⟩⟩
  · rw [hfields.1]
    exact hbound.optional?
  · rw [hfields.2]
    exact htype.optional?

/-- What is read as an annotation is read back. -/
theorem Annotation.readsBack {a : Annotation} (hd : d.Tidy (n + 1)) (h : ofDocument? d = some a) :
    ReadsBack ofDocument? toDocument (n + 1) a := by
  obtain ⟨hbound, htype⟩ := declaredBy_of_ofDocument? h
  exact readsBack_of_values (hbound.readsBack (hd.field? _ _)) (htype.readsBack (hd.field? _ _))

namespace ReferenceConfig

/-- The full form of a reference is read back. -/
theorem readsBack {c : ReferenceConfig} (hd : d.Tidy (n + 3)) (h : ofDocument? d = some c) :
    ReadsBack ofDocument? toDocument (n + 3) c := by
  obtain ⟨-, -, -, hannotations⟩ := ofDocument?_eq_some.1 h
  have htarget := (declaredBy_of_ofDocument? h).target.readsBack (hd.field? _ _)
  have hannotations : ReadsBack (Document.asMapOf? Annotation.ofDocument?)
      (fun m => m.toDocument Annotation.toDocument) (n + 2) c.annotations :=
    .optionalMap (hd.field? _ _) hannotations fun _ _ => Annotation.readsBack
  have hrecord : c.toDocument.IsRecord fields := by
    refine Document.isRecord_of_nodup (List.Nodup.sublist ?_ (show fields.Nodup by decide))
    rw [List.map_append, List.map_append]
    exact ((Document.sublist_map_fst_optionalMember ..).append
      (Document.sublist_map_fst_optionalMember ..)).append (List.Sublist.refl _)
  have hfields : c.toDocument.field? fields "target" = c.target.map Value.toDocument ∧
      c.toDocument.field? fields "description" = c.description.map Document.text ∧
      c.toDocument.field? fields "annotations" =
        some (c.annotations.toDocument Annotation.toDocument) := by
    obtain ⟨_ | target, _ | description, annotations⟩ := c <;> exact ⟨rfl, rfl, rfl⟩
  refine ⟨.table ?_, ofDocument?_eq_some.2 ⟨hrecord, ?_, ?_, ?_⟩⟩
  · rw [List.forall_mem_append, List.forall_mem_append]
    exact ⟨⟨htarget.plain, Document.plain_optionalMember fun _ _ => .text _⟩,
      List.forall_mem_singleton.2 hannotations.plain⟩
  · rw [hfields.1]
    exact htarget.optional?
  · rw [hfields.2.1]
    exact Document.freeText?_map _
  · rw [hfields.2.2]
    exact hannotations.read_write

/-- A value that reads as the full form comes from a document that does. -/
theorem isFull_of_toDocument {v : Value} (hd : d.DistinctNames) (hv : d.toValue? = some v)
    (h : IsFull v.toDocument) : IsFull d := by
  obtain ⟨hrecord, hannotations⟩ := h
  refine ⟨Document.isRecord_of_toDocument hd hv hrecord, fun e he => ?_⟩
  have hed := hd.of_holds (Document.holds_of_field? he)
  obtain ⟨w, hw, hfield⟩ := Document.field?_toDocument hd hv he
  obtain ⟨ms, hms, hrecords⟩ := hannotations _ hfield
  obtain ⟨members, rfl⟩ := Document.eq_table_of_toValue? hw hms
  refine ⟨members, rfl, fun m hm => ?_⟩
  obtain ⟨ms', hms', -, hmembers⟩ := Document.exists_members_toDocument hed hw
  obtain ⟨x, hx, hmem⟩ := hmembers m hm
  obtain rfl : ms' = ms := Document.table.inj (hms'.symm.trans hms)
  exact Document.isRecord_of_toDocument (hed.of_holds (.member hm)) hx (hrecords _ hmem)

end ReferenceConfig

/-- A reference is read back, in the form it was given in. -/
theorem ReferenceDecl.readsBack {r : ReferenceDecl} (hd : d.Tidy (n + 3))
    (h : ofDocument? d = some r) : ReadsBack ofDocument? toDocument (n + 3) r := by
  obtain ⟨v, hv, heq⟩ := Option.map_eq_some_iff.1 h
  subst heq
  have hvalue := hd.readsBack hv
  cases hc : ReferenceConfig.ofDocument? d with
  | some c =>
    obtain ⟨hplain, hread⟩ := ReferenceConfig.readsBack hd hc
    obtain ⟨w, hw⟩ := Document.exists_toValue?.2 hplain.readable
    exact ⟨hplain, by simp [ofDocument?, toDocument, hw, hread]⟩
  | none =>
    have hnone : ReferenceConfig.ofDocument? v.toDocument = none := by
      refine Option.eq_none_iff_forall_ne_some.2 fun c hc' => ?_
      have hreadable := Document.exists_toValue?.1 ⟨v, hv⟩
      have hfull := (ReferenceConfig.exists_ofDocument? hvalue.plain.readable).1 ⟨c, hc'⟩
      have hfull := ReferenceConfig.isFull_of_toDocument hd.distinct hv hfull
      obtain ⟨c', hc'⟩ := (ReferenceConfig.exists_ofDocument? hreadable).2 hfull
      rw [hc] at hc'
      cases hc'
    exact ⟨hvalue.plain, by simp [ofDocument?, toDocument, hvalue.read_write, hnone]⟩

/-! ## Attributes -/

namespace AttributeConfig

/-- The values of an attribute: its type, if there is one, and those of its flags. -/
def values (c : AttributeConfig) : List Value := c.type.toList ++ c.flags.values

/-- An attribute that can be read from the table it is written as: no flag has the name of a field,
the type is not null, and no value has more than these brackets. -/
structure Legible (n : Nat) (c : AttributeConfig) : Prop where
  names : ∀ name ∈ c.flags.keys, name ∉ fieldNames
  type : c.type ≠ some .null
  nested : ∀ v ∈ c.values, v.toDocument.Parsed n

section
variable {members : List (String × Document)} {c : AttributeConfig}

/-- The names of flags are not those of fields. -/
theorem notMem_fieldNames (h : ofDocument? (.table members) = some c) :
    ∀ name ∈ c.flags.keys, name ∉ fieldNames := by
  intro name hname
  rw [(declaredBy_of_ofDocument? h).flags.keys_eq, List.mem_eraseDups] at hname
  obtain ⟨m, hm, rfl⟩ := List.mem_map.1 hname
  simpa using (List.mem_filter.1 hm).2

/-- The values of an attribute are read of what stands in its table. -/
theorem exists_of_mem_values (h : ofDocument? (.table members) = some c) {v : Value}
    (hv : v ∈ c.values) : ∃ e, (Document.table members).Holds e ∧ e.toValue? = some v := by
  rcases List.mem_append.1 hv with hv | hv
  · have htype := Option.mem_toList.1 hv ▸ (declaredBy_of_ofDocument? h).type
    obtain ⟨e, he, hev⟩ := htype.exists_toValue?
    exact ⟨e, .member (OrderedMap.mem_of_lookupIn he), hev⟩
  · obtain ⟨-, -, -, hflags⟩ := ofDocument?_eq_some.1 h
    obtain ⟨f, hf, rfl⟩ := List.mem_map.1 hv
    obtain ⟨_, ⟨⟩ | hm, hread⟩ := Document.exists_of_mem_asMapOf? hflags hf
    exact ⟨_, .member (List.mem_of_mem_filter hm), hread⟩

/-- What is read as the type is not null. -/
theorem type_ne_null (hd : (Document.table members).Parsed (n + 1))
    (h : ofDocument? (.table members) = some c) : c.type ≠ some .null :=
  (declaredBy_of_ofDocument? h).type.ne_null fun _ he =>
    hd.of_holds (.member (OrderedMap.mem_of_lookupIn he))

end

/-- What is read as an attribute is legible. -/
theorem legible_of_ofDocument? {c : AttributeConfig} (hd : d.Parsed (n + 1))
    (h : ofDocument? d = some c) : c.Legible n := by
  cases d with
  | table members =>
    refine ⟨notMem_fieldNames h, type_ne_null hd h, fun v hv => ?_⟩
    obtain ⟨e, he, hev⟩ := exists_of_mem_values h hv
    exact Document.parsed_of_toValue? hev (hd.of_holds he)
  | _ => cases h

section
variable {c : AttributeConfig}

/-- The members of the full form that stand for its fields. -/
def fieldMembers (c : AttributeConfig) : List (String × Document) :=
  Document.optionalMember "type" Value.toDocument c.type ++
    Document.optionalMember "description" Document.text c.description

/-- The members of the full form that are its flags. -/
def flagMembers (c : AttributeConfig) : List (String × Document) :=
  c.flags.entries.map fun f => (f.1, f.2.toDocument)

theorem map_fst_flagMembers (c : AttributeConfig) : c.flagMembers.map Prod.fst = c.flags.keys := by
  rw [flagMembers, List.map_map]
  rfl

theorem sublist_map_fst_fieldMembers (c : AttributeConfig) :
    (c.fieldMembers.map Prod.fst).Sublist fieldNames := by
  rw [fieldMembers, List.map_append]
  exact (Document.sublist_map_fst_optionalMember ..).append
    (Document.sublist_map_fst_optionalMember ..)

/-- The names of the written members are distinct, if no flag has the name of a field. -/
theorem nodup_members (h : ∀ name ∈ c.flags.keys, name ∉ fieldNames) :
    (c.members.map Prod.fst).Nodup := by
  have hsub := c.sublist_map_fst_fieldMembers
  have hmembers : c.members = c.fieldMembers ++ c.flagMembers := rfl
  rw [hmembers, List.map_append, map_fst_flagMembers, List.nodup_append]
  refine ⟨hsub.nodup (by decide), c.flags.nodup_keys, ?_⟩
  rintro name hname _ hflag rfl
  exact h name hflag (hsub.subset hname)

/-- A field is looked up among the members that are no flags. -/
theorem lookupIn_members (h : ∀ name ∈ c.flags.keys, name ∉ fieldNames) {name : String}
    (hname : name ∈ fieldNames) :
    OrderedMap.lookupIn name c.members = OrderedMap.lookupIn name c.fieldMembers := by
  have hnone : OrderedMap.lookupIn name c.flagMembers = none := by
    rw [← Option.not_isSome_iff_eq_none, OrderedMap.isSome_lookupIn, map_fst_flagMembers]
    exact fun hflag => h name hflag hname
  have hmembers : c.members = c.fieldMembers ++ c.flagMembers := rfl
  rw [hmembers, OrderedMap.lookupIn_append, hnone, Option.or_none]

theorem lookupIn_type_members (h : ∀ name ∈ c.flags.keys, name ∉ fieldNames) :
    OrderedMap.lookupIn "type" c.members = c.type.map Value.toDocument := by
  rw [lookupIn_members h (by decide)]
  obtain ⟨_ | type, _ | description, flags⟩ := c <;> rfl

theorem lookupIn_description_members (h : ∀ name ∈ c.flags.keys, name ∉ fieldNames) :
    OrderedMap.lookupIn "description" c.members = c.description.map Document.text := by
  rw [lookupIn_members h (by decide)]
  obtain ⟨_ | type, _ | description, flags⟩ := c <;> rfl

/-- The other members are the flags. -/
theorem otherMembers_members (h : ∀ name ∈ c.flags.keys, name ∉ fieldNames) :
    otherMembers c.members = c.flagMembers := by
  have hfields : c.fieldMembers.filter (fun m => !fieldNames.contains m.1) = [] := by
    refine List.filter_eq_nil_iff.2 fun m hm => ?_
    have hname := c.sublist_map_fst_fieldMembers.subset (List.mem_map_of_mem hm)
    simpa using hname
  have hflags : c.flagMembers.filter (fun m => !fieldNames.contains m.1) = c.flagMembers := by
    refine List.filter_eq_self.2 fun m hm => ?_
    have hname : m.1 ∈ c.flags.keys := map_fst_flagMembers c ▸ List.mem_map_of_mem hm
    simpa using h _ hname
  have hmembers : c.members = c.fieldMembers ++ c.flagMembers := rfl
  rw [hmembers, otherMembers, List.filter_append, hfields, hflags, List.nil_append]

end

/-- The full form of an attribute is read back, if its values are. -/
theorem readsBack_of_values {c : AttributeConfig} (h : c.Legible n)
    (hvalues : ∀ v ∈ c.values, ReadsBack Document.toValue? Value.toDocument n v) :
    ReadsBack ofDocument? toDocument (n + 1) c := by
  have htype : Document.OptionalReadsBack n c.type :=
    ⟨h.type, fun v hv => hvalues v (List.mem_append_left _ (Option.mem_toList.2 hv))⟩
  have hflags : ReadsBack (Document.asMapOf? Document.toValue?)
      (fun m => m.toDocument Value.toDocument) (n + 1) c.flags :=
    .entries fun f hf => hvalues f.2 (List.mem_append_right _ (List.mem_map_of_mem hf))
  have hplain : ∀ m ∈ c.fieldMembers ++ c.flagMembers, m.2.Plain n := by
    rw [fieldMembers, List.forall_mem_append, List.forall_mem_append]
    exact ⟨⟨htype.plain, Document.plain_optionalMember fun _ _ => .text _⟩,
      Document.plain_table.1 hflags.plain⟩
  refine ⟨.table hplain, ofDocument?_eq_some.2
    ⟨Document.isRecord_of_nodup (nodup_members h.names), ?_, ?_, ?_⟩⟩
  · rw [lookupIn_type_members h.names]
    exact htype.optional?
  · rw [lookupIn_description_members h.names]
    exact Document.freeText?_map _
  · rw [otherMembers_members h.names]
    exact hflags.read_write

/-- What is read as an attribute is read back. -/
theorem readsBack {c : AttributeConfig} (hd : d.Tidy (n + 1)) (h : ofDocument? d = some c) :
    ReadsBack ofDocument? toDocument (n + 1) c := by
  refine readsBack_of_values (legible_of_ofDocument? hd.parsed h) fun v hv => ?_
  cases d with
  | table members =>
    obtain ⟨e, he, hev⟩ := exists_of_mem_values h hv
    exact (hd.of_holds he).readsBack hev
  | _ => cases h

end AttributeConfig

/-- An attribute is read back, in the form it was given in. -/
theorem AttributeDecl.readsBack {a : AttributeDecl} (hd : d.Tidy (n + 1))
    (h : ofDocument? d = some a) : ReadsBack ofDocument? toDocument (n + 1) a := by
  obtain ⟨v, hv, heq⟩ := Option.map_eq_some_iff.1 h
  subst heq
  have hvalue := hd.readsBack hv
  cases hc : AttributeConfig.ofDocument? d with
  | some c =>
    obtain ⟨hplain, hread⟩ := AttributeConfig.readsBack hd hc
    obtain ⟨w, hw⟩ := Document.exists_toValue?.2 hplain.readable
    exact ⟨hplain, by simp [ofDocument?, toDocument, hw, hread]⟩
  | none =>
    have hnone : AttributeConfig.ofDocument? v.toDocument = none := by
      refine Option.eq_none_iff_forall_ne_some.2 fun c hc' => ?_
      have hreadable := Document.exists_toValue?.1 ⟨v, hv⟩
      obtain ⟨ms, hms, -⟩ := (AttributeConfig.exists_ofDocument? hvalue.plain.readable).1 ⟨c, hc'⟩
      obtain ⟨members, rfl⟩ := Document.eq_table_of_toValue? hv hms
      obtain ⟨c', hc'⟩ := (AttributeConfig.exists_ofDocument? hreadable).2
        ⟨members, rfl, Document.isRecord_of_nodup (hd.distinct members .self)⟩
      rw [hc] at hc'
      cases hc'
    exact ⟨hvalue.plain, by simp [ofDocument?, toDocument, hvalue.read_write, hnone]⟩

/-! ## Entities and models -/

/-- An entity is read back. -/
theorem Entity.readsBack {e : Entity} (hd : d.Tidy (n + 5)) (h : ofDocument? d = some e) :
    ReadsBack ofDocument? toDocument (n + 5) e := by
  obtain ⟨-, -, hattributes, hreferences⟩ := ofDocument?_eq_some.1 h
  have hattributes : ReadsBack (Document.asMapOf? AttributeDecl.ofDocument?)
      (fun m => m.toDocument AttributeDecl.toDocument) (n + 4) e.attributes :=
    .optionalMap (hd.field? _ _) hattributes fun _ _ => AttributeDecl.readsBack
  have hreferences : ReadsBack (Document.asMapOf? ReferenceDecl.ofDocument?)
      (fun m => m.toDocument ReferenceDecl.toDocument) (n + 4) e.references :=
    .optionalMap (hd.field? _ _) hreferences fun _ _ => ReferenceDecl.readsBack
  have hrecord : e.toDocument.IsRecord fields := by
    refine Document.isRecord_of_nodup (List.Nodup.sublist ?_ (show fields.Nodup by decide))
    rw [List.map_append]
    exact (Document.sublist_map_fst_optionalMember ..).append (List.Sublist.refl _)
  have hfields : e.toDocument.field? fields "description" = e.description.map Document.text ∧
      e.toDocument.field? fields "attributes" =
        some (e.attributes.toDocument AttributeDecl.toDocument) ∧
      e.toDocument.field? fields "references" =
        some (e.references.toDocument ReferenceDecl.toDocument) := by
    obtain ⟨_ | description, attributes, references⟩ := e <;> exact ⟨rfl, rfl, rfl⟩
  refine ⟨.table ?_, ofDocument?_eq_some.2 ⟨hrecord, ?_, ?_, ?_⟩⟩
  · rw [List.forall_mem_append, List.forall_mem_cons, List.forall_mem_singleton]
    exact ⟨Document.plain_optionalMember fun _ _ => .text _, hattributes.plain,
      hreferences.plain⟩
  · rw [hfields.1]
    exact Document.freeText?_map _
  · rw [hfields.2.1]
    exact hattributes.read_write
  · rw [hfields.2.2]
    exact hreferences.read_write

namespace Model

/-- A model is read back from the table that it is written as. -/
theorem readsBack {m : Model} (hd : d.Tidy (n + 6)) (h : ofDocument? d = some m) :
    ReadsBack ofDocument? toDocument (n + 6) m := by
  obtain ⟨es, hes, rfl⟩ := Option.map_eq_some_iff.1 h
  cases d with
  | table members =>
    obtain ⟨hplain, hread⟩ := ReadsBack.map (fun m hm => hd.of_holds (.member hm)) hes
      fun _ _ => Entity.readsBack
    exact ⟨hplain, congrArg (Option.map Model.mk) hread⟩
  | _ => cases hes

/-- Writing a model that was read and reading it again gives the same model, if no table of its text
gives a name twice and its numbers are whole numbers of 64 bits. -/
theorem read?_toJson_of_read? {s : String} {d : Document} {m : Model} (hs : Json.read? s = some d)
    (hnames : d.DistinctNames) (hnumbers : d.WholeNumbers) (hm : read? s = some m) :
    read? m.toJson = some m := by
  have hd : d.Tidy Json.greatestDepth := ⟨Json.parsed_of_read? hs, hnames, hnumbers⟩
  rw [read?, hs] at hm
  obtain ⟨hplain, hread⟩ := readsBack (n := 121) hd hm
  rw [read?, toJson, Json.read?_compact hplain, Option.bind_some, hread]

/-- Loose values of any form, an entity as a list, a reference that is a list of too many items, and
members that are not looked at. -/
theorem read?_toJson_of_forms :
    let d : Document := .table [
      ("A", .list [.table [("z", .null), ("a", .nat 1)], .table [
        ("x", .list [.table [("b", .number (.int (-5))), ("a", .text "")]]),
        ("y", .table [("nullable", .bool true), ("type", .null), ("description", .bool false)])]]),
      ("B", .table [("ignored", .null), ("references", .table [
        ("r", .table [("target", .text "A"),
          ("annotations", .table [("graphql", .list [.nat 1])])]),
        ("s", .table [("target", .text "A"), ("annotations", .null)]),
        ("t", .list [.null, .null, .table [], .null])])])]
    let m : Model := (ofDocument? d).getD .empty
    (Json.read? (Json.compact d) = some d ∧ d.DistinctNames ∧ d.WholeNumbers ∧
      read? (Json.compact d) = some m) ∧ read? m.toJson = some m := by
  intro d m
  have hone : ∀ n, (Document.nat 1).Plain n := fun _ => Document.plain_nat (by decide)
  have hfive : ∀ n, (Document.number (.int (-5))).Plain n := fun _ => .number ⟨by decide, by decide⟩
  have hplain : d.Plain Json.greatestDepth := by
    simp [d, Json.greatestDepth, Document.plain_table, Document.plain_list, Document.Plain.null,
      Document.Plain.text, Document.Plain.bool, hone, hfive]
  have hnames : d.DistinctNames := by
    simp [d, Document.distinctNames_table, Document.distinctNames_list,
      Document.Plain.distinctNames, Document.Plain.null, Document.Plain.text, Document.Plain.bool,
      hone, hfive]
  have hs : Json.read? (Json.compact d) = some d := Json.read?_compact hplain
  have hm : read? (Json.compact d) = some m := by
    rw [read?, hs]
    rfl
  exact ⟨⟨hs, hnames, hplain.wholeNumbers, hm⟩,
    read?_toJson_of_read? hs hnames hplain.wholeNumbers hm⟩

end Model

end EntityModel
