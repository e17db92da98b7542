import EntityModel.Proofs.Config.Grammar
import EntityModel.Proofs.Config.Tables
import EntityModel.Proofs.Document.SameTree
import EntityModel.Proofs.Text.Spelling

/-!
# Configurations are read back

A configuration that was read is read again from the TOML that it is written as, if TOML gives back
the tree that was written (`Config.ofToml?_toToml?`). TOML may give the members of a table in
another order, since it writes those that are tables behind the others. So what is read again is the
same up to the order of its maps (`Config.agrees`), while the tables of loose values are sorted and
come out as they were.

Two things have to be seen of what was read. It is `Canonical`: no flag of an attribute has the name
of one of the fields that it is written next to, and values have their members sorted. And what TOML
can write holds no null (`Toml.notMem_null_of_print?`), which as the type of an attribute would be
read as no type at all. Everything else is written as it is, empty tables included, so that no
built-in table stands in for it.
-/

namespace EntityModel

open Document (Survives SameTree)
open Text (Spelled)

/-! ## Configurations that were read -/

/-- A configuration as reading makes it. -/
structure Config.Canonical (c : Config) : Prop where
  validation : c.validation.Canonical
  iterations : c.generator.iterations < GeneratorOptions.iterationBound

section
variable {n : Notation} {d : Document}

theorem AttributeConfig.canonical_of_ofDocument? {c : AttributeConfig}
    (h : ofDocument? d = some c) : c.Canonical := by
  cases d with
  | table members =>
    refine ⟨notMem_fieldNames h, fun v hv => ?_⟩
    obtain ⟨e, -, he⟩ := exists_of_mem_values h hv
    exact Document.canonical_of_toValue? he
  | _ => cases h

theorem FlagDefault.canonical_of_ofDocument? {f : FlagDefault} (h : ofDocument? n d = some f) :
    f.value.Canonical := by
  obtain ⟨-, -, hvalue, -⟩ := ofDocument?_eq_some.1 h
  obtain ⟨e, -, he⟩ := Option.bind_eq_some_iff.1 hvalue
  exact Document.canonical_of_toValue? he

namespace ValidationTables

theorem canonical_of_ofDocument? {t : ValidationTables} (h : ofDocument? n d = some t) :
    t.Canonical := by
  obtain ⟨-, -, hflags, hattributes⟩ := ofDocument?_eq_some.1 h
  exact ⟨Document.forall_values_of_withDefault? hflags builtIn_canonical.flags
      fun _ _ => FlagDefault.canonical_of_ofDocument?,
    Document.forall_values_of_withDefault? hattributes builtIn_canonical.attributes
      fun _ _ => AttributeConfig.canonical_of_ofDocument?⟩

end ValidationTables

theorem GeneratorOptions.lt_of_ofDocument? {o : GeneratorOptions} (h : ofDocument? n d = some o) :
    o.iterations < iterationBound := by
  obtain ⟨-, -, hiterations⟩ := ofDocument?_eq_some.1 h
  exact Document.of_withDefault? (P := (· < iterationBound)) hiterations (by decide)
    fun _ _ => Document.lt_of_asNatBelow?

theorem Config.canonical_of_ofDocument? {c : Config} (h : ofDocument? n d = some c) :
    c.Canonical := by
  obtain ⟨-, hvalidation, -, hgenerator⟩ := ofDocument?_eq_some.1 h
  exact ⟨Document.of_withDefault? hvalidation ValidationTables.builtIn_canonical
      fun _ _ => ValidationTables.canonical_of_ofDocument?,
    Document.of_withDefault? (P := fun o => o.iterations < GeneratorOptions.iterationBound)
      hgenerator (by decide) fun _ _ => GeneratorOptions.lt_of_ofDocument?⟩

end

/-! ## What TOML can write -/

namespace Toml

open Document (Holds HasPart)

theorem areWritable_eq (items : List Document) : areWritable items = items.all isWritable := by
  induction items with
  | nil => rfl
  | cons d rest ih => rw [areWritable, ih, List.all_cons]

theorem areWritableMembers_eq (members : List (String × Document)) :
    areWritableMembers members = members.all fun m => isWritable m.2 := by
  induction members with
  | nil => rfl
  | cons m rest ih => rw [areWritableMembers, ih, List.all_cons]

/-- All parts of what can be written can be written. -/
theorem isWritable_of_hasPart {d e : Document} (h : isWritable d = true) (he : d.HasPart e) :
    isWritable e = true := by
  induction he with
  | self => exact h
  | inside hholds _ ih =>
    refine ih ?_
    cases hholds with
    | item hitem =>
      rw [isWritable, areWritable_eq] at h
      exact List.all_eq_true.1 h _ hitem
    | member hmember =>
      rw [isWritable, areWritableMembers_eq] at h
      exact List.all_eq_true.1 h _ hmember

/-- The text of a table by its characters. -/
theorem print?_table {members : List (String × Document)} {cs : List Char}
    (h : isWritable (.table members) = true)
    (hcs : ['\n'].intercalate (rootBlock members ++ memberBlocks [] members) = cs) :
    print? (.table members) = some (String.ofList cs) :=
  (if_pos h).trans (congrArg (some ∘ String.ofList) hcs)

/-- There is no null in what is written. -/
theorem notMem_null_of_print? {d : Document} {t : String} (h : print? d = some t) :
    ¬ d.HasPart .null := by
  cases d with
  | table members =>
    obtain ⟨hwritable, -⟩ := Option.ite_none_right_eq_some.1 h
    exact fun hnull => nomatch isWritable_of_hasPart (d := .table members) hwritable hnull
  | _ => cases h

end Toml

/-- An attribute of a configuration that can be written has no null for its type. -/
theorem Config.type_ne_null_of_toToml? {c : Config} {t : String} (h : c.toToml? = some t) :
    ∀ a ∈ c.validation.attributes.values, a.type ≠ some .null := by
  intro a ha hnull
  obtain ⟨e, he, rfl⟩ := List.mem_map.1 ha
  have htype : ("type", .null) ∈ e.2.members :=
    List.mem_append_left _ (List.mem_append_left _ (by rw [hnull]; exact List.mem_singleton_self _))
  have hattribute : (e.1, e.2.toDocument) ∈
      c.validation.attributes.entries.map fun e => (e.1, e.2.toDocument) :=
    List.mem_map_of_mem he
  refine Toml.notMem_null_of_print? h (.inside (.member (List.mem_cons_self ..)) ?_)
  refine .inside (.member (List.mem_cons_of_mem _ (List.mem_cons_of_mem _
    (List.mem_cons_self ..)))) ?_
  exact .inside (.member hattribute) (.inside (.member htype) .self)

/-! ## What is written survives -/

section
variable {n : Notation}

/-- Attributes that differ in the order of their flags only. -/
structure AttributeConfig.Rearranged (a b : AttributeConfig) : Prop where
  type : a.type = b.type
  description : a.description = b.description
  flags : OrderedMap.Rearranged Eq a.flags b.flags

/-- Tables that differ in their order only. -/
structure ValidationTables.Rearranged (t u : ValidationTables) : Prop where
  types : OrderedMap.Rearranged Eq t.types u.types
  flags : OrderedMap.Rearranged Eq t.flags u.flags
  attributes : OrderedMap.Rearranged AttributeConfig.Rearranged t.attributes u.attributes

/-- A free text is read as it was. -/
theorem Document.freeText?_of_rel {t : Option String} {o : Option Document}
    (h : Option.Rel SameTree (t.map .text) o) : freeText? o = some t := by
  cases t with
  | none =>
    cases h
    rfl
  | some s =>
    cases h with
    | some htree =>
      cases htree
      rfl

/-- An attribute survives, if its type is not null. -/
theorem AttributeConfig.survives {c : AttributeConfig} (hc : c.Canonical)
    (htype : c.type ≠ some .null) : Survives toDocument ofDocument? Rearranged c := by
  intro d hd
  obtain ⟨ns, rfl, hns⟩ := SameTree.exists_sameMembers hd
  have hnodup := nodup_members hc.names
  have hvalue : ∀ v ∈ c.values, Survives Value.toDocument Document.toValue? Eq v :=
    fun v hv => Document.survives_value (hc.values v hv)
  have hothers : (Document.table c.flagMembers).SameTree (.table (otherMembers ns)) := by
    rw [← otherMembers_members hc.names]
    exact (hns.filter fun name => !fieldNames.contains name).sameTree
  obtain ⟨flags, hflags, hrearranged⟩ := Survives.map
    (fun f hf => hvalue f.2 (List.mem_append_right _ (List.mem_map_of_mem hf))) _ hothers
  have htypes := hns.lookupIn hnodup "type"
  have hdescriptions := hns.lookupIn hnodup "description"
  rw [lookupIn_type_members hc.names] at htypes
  rw [lookupIn_description_members hc.names] at hdescriptions
  refine ⟨⟨c.type, c.description, flags⟩, ofDocument?_eq_some.2
    ⟨(SameTree.isRecord _ hd hnodup).1, ?_, Document.freeText?_of_rel hdescriptions, hflags⟩,
    rfl, rfl, hrearranged⟩
  exact Survives.optional
    (fun v hv => hvalue v (List.mem_append_left _ (Option.mem_toList.2 hv)))
    (fun v hv => Value.toDocument_ne_null fun hnull => htype (hnull ▸ hv)) htypes

theorem FlagKind.ofName?_name (k : FlagKind) : ofName? k.name = some k := by
  cases k <;> rfl

theorem FlagKind.survives (k : FlagKind) :
    Survives (fun k => .text k.name) (ofDocument? n) Eq k := by
  intro d hd
  cases hd
  exact ⟨k, k.ofName?_name, rfl⟩

theorem FlagDefault.survives {f : FlagDefault} (hf : f.value.Canonical) :
    Survives toDocument (ofDocument? n) Eq f := by
  intro d hd
  obtain ⟨hrecord, hfield⟩ := SameTree.isRecord fields hd (show fields.Nodup by decide)
  obtain ⟨_, hkind, rfl⟩ := (FlagKind.survives f.kind).required (hfield "kind")
  obtain ⟨_, hvalue, rfl⟩ := (Document.survives_value hf).required (hfield "value")
  obtain ⟨_, hdescription, rfl⟩ :=
    (Document.survives_text f.description).withDefault (hfield "description")
  exact ⟨f, ofDocument?_eq_some.2 ⟨.inl hrecord, hkind, hvalue, hdescription⟩, rfl⟩

/-- The tables of validation survive, if no attribute has null for its type. -/
theorem ValidationTables.survives {t : ValidationTables} (ht : t.Canonical)
    (hnull : ∀ c ∈ t.attributes.values, c.type ≠ some .null) :
    Survives toDocument (ofDocument? n) Rearranged t := by
  intro d hd
  obtain ⟨hrecord, hfield⟩ := SameTree.isRecord fields hd (show fields.Nodup by decide)
  have hflag : ∀ e ∈ t.flags.entries,
      Survives FlagDefault.toDocument (FlagDefault.ofDocument? n) Eq e.2 :=
    fun e he => FlagDefault.survives (ht.flags e.2 (List.mem_map_of_mem he))
  have hattribute : ∀ e ∈ t.attributes.entries, Survives AttributeConfig.toDocument
      AttributeConfig.ofDocument? AttributeConfig.Rearranged e.2 :=
    fun e he => AttributeConfig.survives (ht.attributes e.2 (List.mem_map_of_mem he))
      (hnull e.2 (List.mem_map_of_mem he))
  obtain ⟨types, htypes, hsametypes⟩ :=
    (Survives.map fun e _ => Document.survives_text e.2).withDefault (hfield "types")
  obtain ⟨flags, hflags, hsameflags⟩ := (Survives.map hflag).withDefault (hfield "flags")
  obtain ⟨attributes, hattributes, hsameattributes⟩ :=
    (Survives.map hattribute).withDefault (hfield "default_attributes")
  exact ⟨⟨types, flags, attributes⟩,
    ofDocument?_eq_some.2 ⟨.inl hrecord, htypes, hflags, hattributes⟩,
    hsametypes, hsameflags, hsameattributes⟩

theorem SchemaOptions.survives (o : SchemaOptions) :
    Survives toDocument (ofDocument? n) Eq o := by
  intro d hd
  have hnames : ((Document.optionalMember "template" Document.text o.template ++
      [("annotation", Document.text o.ns), ("id_field", Document.text o.idField)]).map
        Prod.fst).Nodup := by
    refine List.Nodup.sublist ?_ (show fields.Nodup by decide)
    rw [List.map_append]
    exact (Document.sublist_map_fst_optionalMember ..).append (List.Sublist.refl _)
  have hfields : o.toDocument.field? fields "template" = o.template.map Document.text ∧
      o.toDocument.field? fields "annotation" = some (.text o.ns) ∧
      o.toDocument.field? fields "id_field" = some (.text o.idField) := by
    obtain ⟨_ | template, ns, idField⟩ := o <;> exact ⟨rfl, rfl, rfl⟩
  obtain ⟨hrecord, hfield⟩ : d.IsRecord fields ∧
      ∀ name, Option.Rel SameTree (o.toDocument.field? fields name) (d.field? fields name) :=
    SameTree.isRecord fields hd hnames
  have htemplate := Survives.optional (fun s _ => Document.survives_text s)
    (fun _ _ hnull => nomatch hnull) (hfields.1 ▸ hfield "template")
  obtain ⟨_, hns, rfl⟩ :=
    (Document.survives_text o.ns).withDefault (hfields.2.1 ▸ hfield "annotation")
  obtain ⟨_, hidField, rfl⟩ :=
    (Document.survives_text o.idField).withDefault (hfields.2.2 ▸ hfield "id_field")
  exact ⟨o, ofDocument?_eq_some.2 ⟨.inl hrecord, htemplate, hns, hidField⟩, rfl⟩

theorem GeneratorOptions.survives {o : GeneratorOptions} (h : o.iterations < iterationBound) :
    Survives toDocument (ofDocument? n) Eq o := by
  intro d hd
  obtain ⟨hrecord, hfield⟩ := SameTree.isRecord fields hd (show fields.Nodup by decide)
  obtain ⟨_, hns, rfl⟩ := (Document.survives_text o.ns).withDefault (hfield "annotation")
  obtain ⟨_, hiterations, rfl⟩ := (Document.survives_nat h).withDefault (hfield "iterations")
  exact ⟨o, ofDocument?_eq_some.2 ⟨.inl hrecord, hns, hiterations⟩, rfl⟩

/-- A configuration survives up to the order of its maps. -/
theorem Config.survives {c : Config} (hc : c.Canonical)
    (hnull : ∀ a ∈ c.validation.attributes.values, a.type ≠ some .null) :
    Survives toDocument (ofDocument? n) (fun c c' => c.agrees c' = true) c := by
  intro d hd
  obtain ⟨hrecord, hfield⟩ := SameTree.isRecord fields hd (show fields.Nodup by decide)
  obtain ⟨validation, hvalidation, hsame⟩ :=
    (ValidationTables.survives hc.validation hnull).withDefault (hfield "validation")
  obtain ⟨_, hgraphql, rfl⟩ := (SchemaOptions.survives c.graphql).withDefault (hfield "graphql")
  obtain ⟨_, hgenerator, rfl⟩ :=
    (GeneratorOptions.survives hc.iterations).withDefault (hfield "tdg")
  refine ⟨⟨validation, c.graphql, c.generator⟩,
    ofDocument?_eq_some.2 ⟨.inl hrecord, hvalidation, hgraphql, hgenerator⟩, ?_⟩
  have hattributes : ∀ a b, AttributeConfig.Rearranged a b →
      (a.type == b.type && a.description == b.description && a.flags.agrees (· == ·) b.flags) =
        true :=
    fun a b h => by simp [h.type, h.description, h.flags.agrees]
  simp [agrees, hsame.types.agrees, hsame.flags.agrees, hsame.attributes.agrees hattributes]

end

namespace Config

/-- A configuration is read again from the TOML that it is written as, if reading gives back the
tree that was written. The document it was read from at first is that of any text of either
notation. Its tables are those that this document supplies, an empty one as well, and what is read
again is the same. -/
theorem ofToml?_toToml? {n : Notation} {source : Document} {c : Config} {t : String}
    (hc : ofDocument? n source = some c) (ht : c.toToml? = some t)
    (htree : ∃ d, Toml.read? t = some d ∧ c.toDocument.SameTree d) :
    (∃ c', ofToml? t = some c' ∧ c.agrees c' = true) ∧
      ∀ e ∈ source.field? fields "validation", c.validation.SuppliedBy n e := by
  constructor
  · obtain ⟨d, hd, hsame⟩ := htree
    obtain ⟨c', hc', hagrees⟩ :=
      survives (canonical_of_ofDocument? hc) (type_ne_null_of_toToml? ht) d hsame
    exact ⟨c', by rw [ofToml?, hd, Option.bind_some, hc'], hagrees⟩
  · intro e he
    obtain ⟨-, hvalidation, -, -⟩ := ofDocument?_eq_some.1 hc
    rw [Option.mem_def.1 he] at hvalidation
    exact ValidationTables.suppliedBy_of_ofDocument? hvalidation

-- the recursion goes over every character of the text
set_option maxRecDepth 4000 in
/-- Two empty tables, and an attribute whose flags are written in another order, since one of them
is a table. -/
theorem ofToml?_toToml?_of_emptied :
    let range : Document := .table [("end", .text "a"),
      ("steps", .list [.number (.real ⟨true, .zero⟩), .nat 2])]
    let validation (id : List (String × Document)) : Document := .table [("types", .table []),
      ("flags", .table []), ("default_attributes", .table [("id", .table id)])]
    let source : Document := .table [("validation",
      validation [("range", range), ("type", .text "string"), ("unit", .bool true)])]
    let flags : OrderedMap String Value := .ofList [("range", .table [("end", .text "a"),
      ("steps", .list [.number (.real ⟨true, .zero⟩), .number (.int 2)])]), ("unit", .bool true)]
    let c : Config := { Config.builtIn with
      validation := ⟨.empty, .empty, .ofList [("id", ⟨some (.text "string"), none, flags⟩)]⟩ }
    let t := "[validation.types]\n\n[validation.flags]\n\n[validation.default_attributes.id]\n" ++
      "type = \x22string\x22\nunit = true\n\n[validation.default_attributes.id.range]\n" ++
      "end = \x22a\x22\nsteps = [\n    -0.0,\n    2,\n]\n\n[graphql]\n" ++
      "annotation = \x22graphql\x22\nid_field = \x22__id_unique\x22\n\n[tdg]\n" ++
      "annotation = \x22tdg\x22\niterations = 1\n"
    (ofDocument? .toml source = some c ∧ c.toToml? = some t ∧
      ∃ d, Toml.read? t = some d ∧ c.toDocument.SameTree d) ∧
      (∃ c', ofToml? t = some c' ∧ c.agrees c' = true) ∧
      ∀ e ∈ source.field? fields "validation", c.validation.SuppliedBy .toml e := by
  intro range validation source flags c t
  have hc : ofDocument? .toml source = some c := rfl
  have hchars : Spelled t _ := .append (.append (.append (.append (.literal _) (.literal _))
    (.literal _)) (.literal _)) (.literal _)
  have ht : c.toToml? = some t := by
    rw [← String.ofList_toList (s := t), hchars]
    exact Toml.print?_table (by decide) (by decide +kernel)
  let d : Document := .table [
    ("validation", validation [("type", .text "string"), ("unit", .bool true), ("range", range)]),
    ("graphql", .table [("annotation", .text "graphql"), ("id_field", .text "__id_unique")]),
    ("tdg", .table [("annotation", .text "tdg"), ("iterations", .nat 1)])]
  have hread : Toml.read? t = some d := by
    rw [Toml.read?, hchars]
    rfl
  have hrange : range.SameTree range :=
    .table (.refl _) rfl
      (.cons (.text _) (.cons (.list (.cons (.number _) (.cons (.number _) .nil))) .nil))
  have hid : (Document.table [("type", .text "string"), ("range", range),
      ("unit", .bool true)]).SameTree
        (.table [("type", .text "string"), ("unit", .bool true), ("range", range)]) :=
    .table ((List.Perm.swap ..).cons _) rfl (.cons (.text _) (.cons hrange (.cons (.bool _) .nil)))
  have hvalidation : c.validation.toDocument.SameTree
      (validation [("type", .text "string"), ("unit", .bool true), ("range", range)]) :=
    .table (.refl _) rfl (.cons (.table (.refl _) rfl .nil) (.cons (.table (.refl _) rfl .nil)
      (.cons (.table (.refl _) rfl (.cons hid .nil)) .nil)))
  have htree : c.toDocument.SameTree d :=
    .table (.refl _) rfl (.cons hvalidation
      (.cons (.table (.refl _) rfl (.cons (.text _) (.cons (.text _) .nil)))
        (.cons (.table (.refl _) rfl (.cons (.text _) (.cons (.number _) .nil))) .nil)))
  exact ⟨⟨hc, ht, d, hread, htree⟩, ofToml?_toToml? hc ht ⟨d, hread, htree⟩⟩

end Config

end EntityModel
