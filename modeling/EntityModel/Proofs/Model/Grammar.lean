import EntityModel.Model.Basic
import EntityModel.Proofs.Document.Records
import EntityModel.Proofs.Document.Values
import EntityModel.Proofs.Json.RoundTrip

/-!
# The grammar of models

What is accepted as a model is said of the document (`Model.IsModel`): a table of entities, each a
record whose attributes and references, if given, are tables. What stands in those tables is not
restricted: an attribute or a reference is in the full form where that fits
(`AttributeConfig.IsFull`, `ReferenceConfig.IsFull`), and any other document is the value of its
type or target.

* `ofDocument?_eq_some`, for each kind of part: what reading it comes down to, field by field;
* `exists_ofDocument?`: it is read if it has its form, as long as all of it is readable;
* `declaredBy_of_ofDocument?`: what is read is what the document declares (`DeclaredBy`), where a
  map has its names in the order of their first places, each with what is given last (`MapOf`);
* `Model.exists_read?_iff_isModel`: the same of the text of a model as a whole.

Half of a surrogate pair is well formed, but no text, and what it stands in is not readable
(`Model.read?_eq_none_of_half_pair`).
-/

namespace EntityModel

namespace Document

/-! ## Fields that may be missing -/

/-- A value that may be missing or null, which both mean that there is none. -/
inductive OptionalValue : Option Document → Option Value → Prop
  | missing : OptionalValue none none
  | null : OptionalValue (some .null) none
  | value {d : Document} {v : Value} : d ≠ .null → d.toValue? = some v →
    OptionalValue (some d) (some v)

/-- A text that may be missing: null is no text, and any other value is its compact JSON. -/
inductive FreeText : Option Document → Option String → Prop
  | missing : FreeText none none
  | null {d : Document} : d.toValue? = some .null → FreeText (some d) none
  | text {d : Document} {s : String} : d.toValue? = some (.text s) → FreeText (some d) (some s)
  | other {d : Document} {v : Value} : d.toValue? = some v → v ≠ .null → (∀ s, v ≠ .text s) →
    FreeText (some d) (some (Json.compact v.toDocument))

/-- The map of the members of a table: the names in the order of their first places, each with the
last that is given under it. -/
structure MapOf {α : Type} (R : Document → α → Prop) (members : List (String × Document))
    (m : OrderedMap String α) : Prop where
  keys_eq : m.keys = (members.map Prod.fst).eraseDups
  last : ∀ before name d after, members = before ++ (name, d) :: after →
    name ∉ after.map Prod.fst → ∃ a, m.find? name = some a ∧ R d a

/-- A map that may be missing; what is given for it is a table. -/
inductive OptionalMap {α : Type} (R : Document → α → Prop) :
    Option Document → OrderedMap String α → Prop
  | missing : OptionalMap R none .empty
  | given {members : List (String × Document)} {m : OrderedMap String α} : MapOf R members m →
    OptionalMap R (some (.table members)) m

section
variable {α : Type} {read : Document → Option α} {R : Document → α → Prop} {o : Option Document}

theorem optional?_eq_some {v : Option Value} :
    optional? toValue? o = some v ↔ OptionalValue o v := by
  constructor
  · intro h
    unfold optional? at h
    split at h
    · cases h; exact .missing
    · cases h; exact .null
    · next d hd =>
      obtain ⟨v, hv, rfl⟩ := Option.map_eq_some_iff.1 h
      exact .value hd hv
  · intro h
    cases h with
    | missing => rfl
    | null => rfl
    | value hd hv =>
      rw [optional?, hv]
      · rfl
      · exact hd

theorem freeText?_eq_some {t : Option String} : freeText? o = some t ↔ FreeText o t := by
  cases o with
  | none =>
    constructor
    · intro h
      cases h
      exact .missing
    · intro h
      cases h
      rfl
  | some d =>
    rw [freeText?, Option.map_eq_some_iff]
    constructor
    · rintro ⟨v, hv, rfl⟩
      cases v with
      | null => exact .null hv
      | text s => exact .text hv
      | _ => exact .other hv (by rintro ⟨⟩) (by rintro _ ⟨⟩)
    · intro h
      cases h with
      | null hv => exact ⟨_, hv, rfl⟩
      | text hv => exact ⟨_, hv, rfl⟩
      | @other _ v hv hnull htext =>
        refine ⟨v, hv, ?_⟩
        cases v with
        | null => exact absurd rfl hnull
        | text s => exact absurd rfl (htext s)
        | _ => rfl

theorem exists_optionalValue (h : ∀ d ∈ o, d.Readable) : ∃ v, OptionalValue o v := by
  cases o with
  | none => exact ⟨none, .missing⟩
  | some d =>
    obtain ⟨v, hv⟩ := exists_toValue?.2 (h d rfl)
    by_cases hd : d = .null
    · exact ⟨none, hd ▸ .null⟩
    · exact ⟨some v, .value hd hv⟩

theorem exists_freeText (h : ∀ d ∈ o, d.Readable) : ∃ t, FreeText o t := by
  cases o with
  | none => exact ⟨none, .missing⟩
  | some d =>
    obtain ⟨v, hv⟩ := exists_toValue?.2 (h d rfl)
    exact ⟨_, freeText?_eq_some.1 (congrArg (Option.map _) hv)⟩

/-- A table is read as a map if all that is given in it is read, also what does not count. -/
theorem exists_asMapOf?_table {members : List (String × Document)} :
    (∃ m, (table members).asMapOf? read = some m) ↔ ∀ m ∈ members, ∃ a, read m.2 = some a := by
  have hmembers : (∃ es, members.mapM (fun m => (read m.2).map fun v => (m.1, v)) = some es) ↔
      ∀ m ∈ members, ∃ a, read m.2 = some a := by
    rw [exists_mapM_eq_some]
    simp
  rw [← hmembers]
  simp [asMapOf?_table]

theorem mapOf_of_asMapOf? {members : List (String × Document)} {m : OrderedMap String α}
    (h : (table members).asMapOf? read = some m) (hR : ∀ d a, read d = some a → R d a) :
    MapOf R members m := by
  rw [asMapOf?_table] at h
  obtain ⟨es, hes, rfl⟩ := Option.map_eq_some_iff.1 h
  refine ⟨by rw [OrderedMap.keys_ofList, map_fst_of_mapM hes], ?_⟩
  intro before name d after hsplit hlast
  rw [hsplit, List.mapM_append, List.mapM_cons] at hes
  simp only [Option.bind_eq_bind, Option.bind_eq_some_iff, Option.map_eq_some_iff,
    Option.pure_def, Option.some.injEq] at hes
  obtain ⟨es₁, -, _, ⟨_, ⟨a, ha, rfl⟩, es₂, hafter, rfl⟩, rfl⟩ := hes
  refine ⟨a, OrderedMap.find?_ofList.2 ⟨es₁, es₂, rfl, ?_⟩, hR d a ha⟩
  rwa [map_fst_of_mapM hafter]

/-- A map that may be missing is read if it is, or if it is a table of what can be read. -/
theorem exists_withDefault? :
    (∃ m, withDefault? .empty (asMapOf? read) o = some m) ↔
      ∀ d ∈ o, ∃ members, d = .table members ∧ ∀ m ∈ members, ∃ a, read m.2 = some a := by
  cases o with
  | none => exact iff_of_true ⟨_, rfl⟩ fun _ h => nomatch h
  | some d =>
    rw [withDefault?]
    constructor
    · intro h e he
      obtain rfl := Option.some.inj he
      cases d with
      | table members => exact ⟨members, rfl, exists_asMapOf?_table.1 h⟩
      | _ => exact nomatch h
    · intro h
      obtain ⟨members, rfl, hmembers⟩ := h d rfl
      exact exists_asMapOf?_table.2 hmembers

theorem optionalMap_of_withDefault? {m : OrderedMap String α}
    (h : withDefault? .empty (asMapOf? read) o = some m) (hR : ∀ d a, read d = some a → R d a) :
    OptionalMap R o m := by
  cases o with
  | none =>
    obtain rfl := Option.some.inj h
    exact .missing
  | some d =>
    obtain ⟨members, rfl, -⟩ := exists_withDefault?.1 ⟨m, h⟩ d rfl
    exact .given (mapOf_of_asMapOf? h hR)

/-- What a readable document gives for a field is readable. -/
theorem Readable.field? {d : Document} (h : d.Readable) (names : List String) (name : String) :
    ∀ e ∈ d.field? names name, e.Readable :=
  fun _ he => h.of_holds (holds_of_field? he)

end

end Document

open Document (OptionalValue FreeText MapOf OptionalMap)

/-! ## Annotations -/

namespace Annotation

/-- The fields of an annotation. -/
def fields : List String := ["upper_bound", "reference_type"]

theorem ofDocument?_eq_some {d : Document} {a : Annotation} :
    ofDocument? d = some a ↔ d.IsRecord fields ∧
      Document.optional? Document.toValue? (d.field? fields "upper_bound") = some a.upperBound ∧
      Document.optional? Document.toValue? (d.field? fields "reference_type") =
        some a.referenceType := by
  refine (Document.bind_fields?_eq_some (show fields.Nodup by decide)).trans
    (and_congr Document.isRecordIn_false ?_)
  simp only [fields, List.map_cons, List.map_nil, Option.bind_eq_bind, Option.bind_eq_some_iff,
    Option.pure_def, Option.some.injEq]
  constructor
  · rintro ⟨_, hbound, _, htype, rfl⟩
    exact ⟨hbound, htype⟩
  · rintro ⟨hbound, htype⟩
    exact ⟨_, hbound, _, htype, rfl⟩

/-- What an annotation says is what is given for its two fields. -/
structure DeclaredBy (d : Document) (a : Annotation) : Prop where
  upperBound : OptionalValue (d.field? fields "upper_bound") a.upperBound
  referenceType : OptionalValue (d.field? fields "reference_type") a.referenceType

theorem declaredBy_of_ofDocument? {d : Document} {a : Annotation} (h : ofDocument? d = some a) :
    DeclaredBy d a :=
  have ⟨_, hbound, htype⟩ := ofDocument?_eq_some.1 h
  ⟨Document.optional?_eq_some.1 hbound, Document.optional?_eq_some.1 htype⟩

/-- Every record of the two fields is an annotation. -/
theorem exists_ofDocument? {d : Document} (hd : d.Readable) :
    (∃ a, ofDocument? d = some a) ↔ d.IsRecord fields := by
  constructor
  · exact fun ⟨a, h⟩ => (ofDocument?_eq_some.1 h).1
  · intro h
    obtain ⟨bound, hbound⟩ := Document.exists_optionalValue (hd.field? fields "upper_bound")
    obtain ⟨type, htype⟩ := Document.exists_optionalValue (hd.field? fields "reference_type")
    exact ⟨⟨bound, type⟩, ofDocument?_eq_some.2
      ⟨h, Document.optional?_eq_some.2 hbound, Document.optional?_eq_some.2 htype⟩⟩

end Annotation

/-! ## References -/

namespace ReferenceConfig

/-- The fields of a reference. -/
def fields : List String := ["target", "description", "annotations"]

theorem ofDocument?_eq_some {d : Document} {c : ReferenceConfig} :
    ofDocument? d = some c ↔ d.IsRecord fields ∧
      Document.optional? Document.toValue? (d.field? fields "target") = some c.target ∧
      Document.freeText? (d.field? fields "description") = some c.description ∧
      Document.withDefault? .empty (Document.asMapOf? Annotation.ofDocument?)
        (d.field? fields "annotations") = some c.annotations := by
  refine (Document.bind_fields?_eq_some (show fields.Nodup by decide)).trans
    (and_congr Document.isRecordIn_false ?_)
  simp only [fields, List.map_cons, List.map_nil, Option.bind_eq_bind, Option.bind_eq_some_iff,
    Option.pure_def, Option.some.injEq]
  constructor
  · rintro ⟨_, htarget, _, hdescription, _, hannotations, rfl⟩
    exact ⟨htarget, hdescription, hannotations⟩
  · rintro ⟨htarget, hdescription, hannotations⟩
    exact ⟨_, htarget, _, hdescription, _, hannotations, rfl⟩

/-- The full form of a reference: a record whose annotations, if given, are a table of records. -/
def IsFull (d : Document) : Prop :=
  d.IsRecord fields ∧ ∀ e ∈ d.field? fields "annotations",
    ∃ members, e = .table members ∧ ∀ m ∈ members, m.2.IsRecord Annotation.fields

/-- What the full form says is what is given for its fields. -/
structure DeclaredBy (d : Document) (c : ReferenceConfig) : Prop where
  target : OptionalValue (d.field? fields "target") c.target
  description : FreeText (d.field? fields "description") c.description
  annotations : OptionalMap Annotation.DeclaredBy (d.field? fields "annotations") c.annotations

theorem declaredBy_of_ofDocument? {d : Document} {c : ReferenceConfig}
    (h : ofDocument? d = some c) : DeclaredBy d c :=
  have ⟨_, htarget, hdescription, hannotations⟩ := ofDocument?_eq_some.1 h
  ⟨Document.optional?_eq_some.1 htarget, Document.freeText?_eq_some.1 hdescription,
    Document.optionalMap_of_withDefault? hannotations fun _ _ =>
      Annotation.declaredBy_of_ofDocument?⟩

theorem exists_ofDocument? {d : Document} (hd : d.Readable) :
    (∃ c, ofDocument? d = some c) ↔ IsFull d := by
  have hannotations : (∃ as, Document.withDefault? .empty
        (Document.asMapOf? Annotation.ofDocument?) (d.field? fields "annotations") = some as) ↔
      ∀ e ∈ d.field? fields "annotations",
        ∃ members, e = .table members ∧ ∀ m ∈ members, m.2.IsRecord Annotation.fields := by
    rw [Document.exists_withDefault?]
    refine forall₂_congr fun e he => exists_congr fun members => and_congr_right fun heq => ?_
    subst heq
    have hmembers := Document.readable_table.1 (hd.field? fields "annotations" _ he)
    exact forall₂_congr fun m hm => Annotation.exists_ofDocument? (hmembers m hm)
  rw [IsFull, ← hannotations]
  constructor
  · rintro ⟨c, h⟩
    obtain ⟨hrecord, -, -, has⟩ := ofDocument?_eq_some.1 h
    exact ⟨hrecord, _, has⟩
  · rintro ⟨hrecord, as, has⟩
    obtain ⟨target, htarget⟩ := Document.exists_optionalValue (hd.field? fields "target")
    obtain ⟨t, ht⟩ := Document.exists_freeText (hd.field? fields "description")
    exact ⟨⟨target, t, as⟩, ofDocument?_eq_some.2 ⟨hrecord, Document.optional?_eq_some.2 htarget,
      Document.freeText?_eq_some.2 ht, has⟩⟩

end ReferenceConfig

/-- A reference is declared by the full form where that fits, and by the value of its target
otherwise. -/
inductive ReferenceDecl.DeclaredBy (d : Document) : ReferenceDecl → Prop
  | full {c : ReferenceConfig} : ReferenceConfig.IsFull d → ReferenceConfig.DeclaredBy d c →
    DeclaredBy d (.full c)
  | shorthand {v : Value} : ¬ ReferenceConfig.IsFull d → d.toValue? = some v →
    DeclaredBy d (.shorthand v)

/-- Everything that is readable is a reference. -/
theorem ReferenceDecl.exists_ofDocument? {d : Document} :
    (∃ r, ofDocument? d = some r) ↔ d.Readable := by
  rw [← Document.exists_toValue?]
  simp [ofDocument?]

theorem ReferenceDecl.declaredBy_of_ofDocument? {d : Document} {r : ReferenceDecl}
    (h : ofDocument? d = some r) : DeclaredBy d r := by
  have hd := exists_ofDocument?.1 ⟨r, h⟩
  obtain ⟨v, hv, heq⟩ := Option.map_eq_some_iff.1 h
  subst heq
  cases hc : ReferenceConfig.ofDocument? d with
  | some c =>
    exact .full ((ReferenceConfig.exists_ofDocument? hd).1 ⟨c, hc⟩)
      (ReferenceConfig.declaredBy_of_ofDocument? hc)
  | none =>
    refine .shorthand (fun hfull => ?_) hv
    obtain ⟨c, hc'⟩ := (ReferenceConfig.exists_ofDocument? hd).2 hfull
    rw [hc] at hc'
    cases hc'

/-! ## Attributes -/

namespace AttributeConfig

/-- The members of a table that are not fields of an attribute. -/
def otherMembers (members : List (String × Document)) : List (String × Document) :=
  members.filter fun m => !fieldNames.contains m.1

theorem ofDocument?_eq_some {members : List (String × Document)} {c : AttributeConfig} :
    ofDocument? (.table members) = some c ↔ (Document.table members).IsRecord fieldNames ∧
      Document.optional? Document.toValue? (OrderedMap.lookupIn "type" members) = some c.type ∧
      Document.freeText? (OrderedMap.lookupIn "description" members) = some c.description ∧
      (Document.table (otherMembers members)).asMapOf? Document.toValue? = some c.flags := by
  have hrecord : (Document.table members).IsRecord fieldNames ↔
      (members.map Prod.fst).count "type" ≤ 1 ∧ (members.map Prod.fst).count "description" ≤ 1 := by
    simp [Document.IsRecord, fieldNames]
  rw [hrecord, Document.asMapOf?_table, ← Document.toMembers?_eq]
  simp only [ofDocument?, Option.bind_eq_bind, Option.bind_eq_some_iff, Document.member?_eq_some,
    Option.pure_def, Option.some.injEq, Option.map_eq_some_iff]
  constructor
  · rintro ⟨_, ⟨htype, rfl⟩, type, hvalue, _, ⟨hdescription, rfl⟩, t, ht, fs, hfs, rfl⟩
    exact ⟨⟨htype, hdescription⟩, hvalue, ht, fs, hfs, rfl⟩
  · rintro ⟨⟨htype, hdescription⟩, hvalue, ht, fs, hfs, hflags⟩
    exact ⟨_, ⟨htype, rfl⟩, _, hvalue, _, ⟨hdescription, rfl⟩, _, ht, fs, hfs, by rw [hflags]⟩

/-- The full form of an attribute: a table that gives neither of the fields twice. -/
def IsFull (d : Document) : Prop := ∃ members, d = .table members ∧ d.IsRecord fieldNames

/-- What the full form says is what is given for its fields, and the other members are flags. -/
structure DeclaredBy (members : List (String × Document)) (c : AttributeConfig) : Prop where
  type : OptionalValue (OrderedMap.lookupIn "type" members) c.type
  description : FreeText (OrderedMap.lookupIn "description" members) c.description
  flags : MapOf (fun d v => d.toValue? = some v) (otherMembers members) c.flags

theorem declaredBy_of_ofDocument? {members : List (String × Document)} {c : AttributeConfig}
    (h : ofDocument? (.table members) = some c) : DeclaredBy members c :=
  have ⟨_, htype, hdescription, hflags⟩ := ofDocument?_eq_some.1 h
  ⟨Document.optional?_eq_some.1 htype, Document.freeText?_eq_some.1 hdescription,
    Document.mapOf_of_asMapOf? hflags fun _ _ => id⟩

theorem exists_ofDocument? {d : Document} (hd : d.Readable) :
    (∃ c, ofDocument? d = some c) ↔ IsFull d := by
  constructor
  · rintro ⟨c, h⟩
    cases d with
    | table members => exact ⟨members, rfl, (ofDocument?_eq_some.1 h).1⟩
    | _ => exact nomatch h
  · rintro ⟨members, rfl, hrecord⟩
    obtain ⟨type, htype⟩ := Document.exists_optionalValue (hd.field? fieldNames "type")
    obtain ⟨t, ht⟩ := Document.exists_freeText (hd.field? fieldNames "description")
    obtain ⟨flags, hflags⟩ := Document.exists_asMapOf?_table.2 fun m hm =>
      Document.exists_toValue?.2 (Document.readable_table.1 hd m (List.mem_of_mem_filter hm))
    exact ⟨⟨type, t, flags⟩, ofDocument?_eq_some.2 ⟨hrecord, Document.optional?_eq_some.2 htype,
      Document.freeText?_eq_some.2 ht, hflags⟩⟩

end AttributeConfig

/-- An attribute is declared by the full form where that fits, and by the value of its type
otherwise. -/
inductive AttributeDecl.DeclaredBy : Document → AttributeDecl → Prop
  | full {members : List (String × Document)} {c : AttributeConfig} :
    AttributeConfig.IsFull (.table members) → AttributeConfig.DeclaredBy members c →
    DeclaredBy (.table members) (.full c)
  | shorthand {d : Document} {v : Value} : ¬ AttributeConfig.IsFull d → d.toValue? = some v →
    DeclaredBy d (.shorthand v)

/-- Everything that is readable is an attribute. -/
theorem AttributeDecl.exists_ofDocument? {d : Document} :
    (∃ a, ofDocument? d = some a) ↔ d.Readable := by
  rw [← Document.exists_toValue?]
  simp [ofDocument?]

theorem AttributeDecl.declaredBy_of_ofDocument? {d : Document} {a : AttributeDecl}
    (h : ofDocument? d = some a) : DeclaredBy d a := by
  have hd := exists_ofDocument?.1 ⟨a, h⟩
  obtain ⟨v, hv, heq⟩ := Option.map_eq_some_iff.1 h
  subst heq
  cases hc : AttributeConfig.ofDocument? d with
  | some c =>
    obtain ⟨members, rfl, hrecord⟩ := (AttributeConfig.exists_ofDocument? hd).1 ⟨c, hc⟩
    exact .full ⟨members, rfl, hrecord⟩ (AttributeConfig.declaredBy_of_ofDocument? hc)
  | none =>
    refine .shorthand (fun hfull => ?_) hv
    obtain ⟨c, hc'⟩ := (AttributeConfig.exists_ofDocument? hd).2 hfull
    rw [hc] at hc'
    cases hc'

/-! ## Entities and models -/

namespace Entity

/-- The fields of an entity. -/
def fields : List String := ["description", "attributes", "references"]

theorem ofDocument?_eq_some {d : Document} {e : Entity} :
    ofDocument? d = some e ↔ d.IsRecord fields ∧
      Document.freeText? (d.field? fields "description") = some e.description ∧
      Document.withDefault? .empty (Document.asMapOf? AttributeDecl.ofDocument?)
        (d.field? fields "attributes") = some e.attributes ∧
      Document.withDefault? .empty (Document.asMapOf? ReferenceDecl.ofDocument?)
        (d.field? fields "references") = some e.references := by
  refine (Document.bind_fields?_eq_some (show fields.Nodup by decide)).trans
    (and_congr Document.isRecordIn_false ?_)
  simp only [fields, List.map_cons, List.map_nil, Option.bind_eq_bind, Option.bind_eq_some_iff,
    Option.pure_def, Option.some.injEq]
  constructor
  · rintro ⟨_, hdescription, _, hattributes, _, hreferences, rfl⟩
    exact ⟨hdescription, hattributes, hreferences⟩
  · rintro ⟨hdescription, hattributes, hreferences⟩
    exact ⟨_, hdescription, _, hattributes, _, hreferences, rfl⟩

/-- The form of an entity: a record whose attributes and references, if given, are tables. -/
def IsEntity (d : Document) : Prop :=
  d.IsRecord fields ∧ ∀ name ∈ ["attributes", "references"], ∀ e ∈ d.field? fields name,
    ∃ members, e = .table members

/-- What an entity says is what is given for its fields. -/
structure DeclaredBy (d : Document) (e : Entity) : Prop where
  description : FreeText (d.field? fields "description") e.description
  attributes : OptionalMap AttributeDecl.DeclaredBy (d.field? fields "attributes") e.attributes
  references : OptionalMap ReferenceDecl.DeclaredBy (d.field? fields "references") e.references

theorem declaredBy_of_ofDocument? {d : Document} {e : Entity} (h : ofDocument? d = some e) :
    DeclaredBy d e :=
  have ⟨_, hdescription, hattributes, hreferences⟩ := ofDocument?_eq_some.1 h
  ⟨Document.freeText?_eq_some.1 hdescription,
    Document.optionalMap_of_withDefault? hattributes fun _ _ =>
      AttributeDecl.declaredBy_of_ofDocument?,
    Document.optionalMap_of_withDefault? hreferences fun _ _ =>
      ReferenceDecl.declaredBy_of_ofDocument?⟩

theorem exists_ofDocument? {d : Document} (hd : d.Readable) :
    (∃ e, ofDocument? d = some e) ↔ IsEntity d := by
  have hmap : ∀ {α : Type} {read : Document → Option α} (name : String),
      (∀ {e : Document}, (∃ a, read e = some a) ↔ e.Readable) →
      ((∃ m, Document.withDefault? .empty (Document.asMapOf? read) (d.field? fields name) =
        some m) ↔ ∀ e ∈ d.field? fields name, ∃ members, e = .table members) := by
    intro α read name hread
    rw [Document.exists_withDefault?]
    refine forall₂_congr fun e he => exists_congr fun members => and_iff_left_of_imp fun heq => ?_
    subst heq
    exact fun m hm => hread.2 (Document.readable_table.1 (hd.field? fields name _ he) m hm)
  have hattributes := hmap "attributes" AttributeDecl.exists_ofDocument?
  have hreferences := hmap "references" ReferenceDecl.exists_ofDocument?
  rw [IsEntity, List.forall_mem_cons, List.forall_mem_singleton, ← hattributes, ← hreferences]
  constructor
  · rintro ⟨e, h⟩
    obtain ⟨hrecord, -, has, hrs⟩ := ofDocument?_eq_some.1 h
    exact ⟨hrecord, ⟨_, has⟩, _, hrs⟩
  · rintro ⟨hrecord, ⟨as, has⟩, rs, hrs⟩
    obtain ⟨t, ht⟩ := Document.exists_freeText (hd.field? fields "description")
    exact ⟨⟨t, as, rs⟩, ofDocument?_eq_some.2
      ⟨hrecord, Document.freeText?_eq_some.2 ht, has, hrs⟩⟩

end Entity

namespace Model

/-- The form of a model: a table of entities. -/
def IsModel (d : Document) : Prop :=
  ∃ members, d = .table members ∧ ∀ m ∈ members, Entity.IsEntity m.2

/-- A model has the entities of a table. -/
def DeclaredBy (d : Document) (m : Model) : Prop :=
  ∃ members, d = .table members ∧ MapOf Entity.DeclaredBy members m.entities

theorem declaredBy_of_ofDocument? {d : Document} {m : Model} (h : ofDocument? d = some m) :
    DeclaredBy d m := by
  obtain ⟨es, hes, rfl⟩ := Option.map_eq_some_iff.1 h
  cases d with
  | table members =>
    exact ⟨members, rfl, Document.mapOf_of_asMapOf? hes fun _ _ => Entity.declaredBy_of_ofDocument?⟩
  | _ => exact nomatch hes

theorem exists_ofDocument? {d : Document} (hd : d.Readable) :
    (∃ m, ofDocument? d = some m) ↔ IsModel d := by
  have hmembers : ∀ members, d = .table members →
      ((∃ m, ofDocument? d = some m) ↔ ∀ m ∈ members, Entity.IsEntity m.2) := by
    rintro members rfl
    have htable : (∃ es, (Document.table members).asMapOf? Entity.ofDocument? = some es) ↔
        ∀ m ∈ members, ∃ e, Entity.ofDocument? m.2 = some e :=
      Document.exists_asMapOf?_table
    rw [← forall₂_congr fun m hm => Entity.exists_ofDocument? (Document.readable_table.1 hd m hm),
      ← htable]
    simp [ofDocument?]
  constructor
  · rintro ⟨m, h⟩
    obtain ⟨members, heq, -⟩ := declaredBy_of_ofDocument? h
    exact ⟨members, heq, (hmembers members heq).1 ⟨m, h⟩⟩
  · rintro ⟨members, heq, h⟩
    exact (hmembers members heq).2 h

/-- A text that is readable as a whole is that of a model exactly if it has the form of one, and the
model is what the text declares. -/
theorem exists_read?_iff_isModel {s : String} {d : Document} (hs : Json.read? s = some d)
    (hd : d.Readable) :
    ((∃ m, read? s = some m) ↔ IsModel d) ∧ ∀ m, read? s = some m → DeclaredBy d m := by
  have hread : read? s = ofDocument? d := by rw [read?, hs, Option.bind_some]
  rw [hread]
  exact ⟨exists_ofDocument? hd, fun m => declaredBy_of_ofDocument?⟩

/-- An entity as a list and one as a table, an attribute that is given twice, a flag that is given
twice, and a reference whose annotations are no table. -/
theorem exists_read?_iff_isModel_of_forms :
    let d : Document := .table [
      ("A", .list [.text "about", .table [("x", .text "string"),
        ("y", .table [("type", .null), ("nullable", .bool true), ("nullable", .text "5")]),
        ("x", .list [.table [("b", .null), ("a", .text "")]])]]),
      ("B", .table [("references", .table [("r", .list [.text "A", .null, .table []]),
        ("s", .table [("target", .text "A"), ("annotations", .null)])]), ("ignored", .null)])]
    let s := Json.compact d
    (Json.read? s = some d ∧ d.Readable) ∧
      ((∃ m, read? s = some m) ↔ IsModel d) ∧ ∀ m, read? s = some m → DeclaredBy d m := by
  intro d s
  have hplain : d.Plain Json.greatestDepth := by
    simp [d, Json.greatestDepth, Document.plain_table, Document.plain_list, Document.Plain.null,
      Document.Plain.text, Document.Plain.bool]
  have hs : Json.read? s = some d := Json.read?_compact hplain
  exact ⟨⟨hs, hplain.readable⟩, exists_read?_iff_isModel hs hplain.readable⟩

/-- Half of a surrogate pair is no text. So it keeps an attribute from being read, even one that is
given again. -/
theorem read?_eq_none_of_half_pair :
    let s := "\x7b\x22A\x22: \x7b\x22attributes\x22: \x7b\x22x\x22: \x22\\ud800\x22, " ++
      "\x22x\x22: \x22string\x22\x7d\x7d\x7d"
    let d : Document := .table [("A", .table [("attributes",
      .table [("x", .unreadable), ("x", .text "string")])])]
    Json.read? s = some d ∧ IsModel d ∧ read? s = none := by
  intro s d
  have htokens : Json.tokens? s.toList = some [.mark '\x7b', .text (some "A"), .mark ':',
      .mark '\x7b', .text (some "attributes"), .mark ':', .mark '\x7b', .text (some "x"), .mark ':',
      .text none, .mark ',', .text (some "x"), .mark ':', .text (some "string"), .mark '\x7d',
      .mark '\x7d', .mark '\x7d'] := by
    decide +kernel
  have hs : Json.read? s = some d := by
    rw [Json.read?, Json.ofChars?, htokens]
    rfl
  have hattributes : Entity.IsEntity (.table [("attributes",
      .table [("x", .unreadable), ("x", .text "string")])]) := by
    refine ⟨by decide, ?_⟩
    rintro name hname e he
    rcases List.mem_pair.1 hname with rfl | rfl
    · exact ⟨_, (Option.some.inj he).symm⟩
    · cases he
  refine ⟨hs, ⟨_, rfl, List.forall_mem_singleton.2 hattributes⟩, ?_⟩
  rw [read?, hs]
  rfl

end Model

end EntityModel
